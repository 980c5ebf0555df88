import UcsmaRateControl.Ath9k.ConfTx

/-!
# EIFS after configurations

Where the flag `eifs_equal_to_aifs` of the chip is set, `ath9k_conf_tx` ends a configuration of the
best-effort queue by computing EIFS from its AIFS. It does so whether or not `ath_txq_update` has
succeeded, so a configuration that fails leaves the AIFS of the hardware queue as it was and moves
EIFS away from it.
-/

namespace UcsmaRateControl

namespace Configured

variable (s : Configured)

/-- A register of the chip. -/
def reg (r : Reg) : UInt32 := s.node.ah.regs r

/-- EIFS. -/
def eifs : UInt32 := s.reg .dGblIfsEifs

/-- The EIFS that goes with an AIFS. -/
def eifsFor (aifs : UInt8) : UInt32 :=
  s.reg .dGblIfsSifs + aifs.toUInt32 * s.reg .dGblIfsSlot

end Configured

/-- The AIFS that an event puts into force on the best-effort queue: that of a configuration which
returns zero. -/
def eifsChange (X : TxqUpdate) (s : Configured) : ConfEvent → List UInt8
  | .confTx queue params env =>
    if queue = 2 ∧ (s.ath9kConfTx X queue params env).2 = 0 then [params.aifs] else []
  | .unlock _ => []

/-- The EIFS that goes with the AIFS of the last best-effort configuration that returned zero, and
the initial one if there was none. -/
def trackedEifs (K : Kernel) (X : TxqUpdate) (s : Configured) (es : List ConfEvent) : UInt32 :=
  ((configured K X).trace (eifsChange X) s es).getLast?.elim s.eifs s.eifsFor

/-! ## The calls -/

/-- A configuration of the best-effort queue: the AIFS it asks for, and what `ath_txq_update`
returns. -/
structure BestEffortCall where
  aifs : UInt8
  ret : Int32
deriving DecidableEq

/-- The best-effort configuration that an event is. -/
def bestEffortCall (X : TxqUpdate) (s : Configured) : ConfEvent → List BestEffortCall
  | .confTx queue params env =>
    if queue = 2 then [⟨params.aifs, (s.updated X 2 params env).2⟩] else []
  | .unlock _ => []

/-- The best-effort configurations of a run, oldest first. -/
def bestEffortCalls (K : Kernel) (X : TxqUpdate) (s : Configured) (es : List ConfEvent) :
    List BestEffortCall := (configured K X).trace (bestEffortCall X) s es

namespace BestEffortCall

/-- The AIFS that a call puts into force. -/
def taken (c : BestEffortCall) : Option UInt8 := if c.ret = 0 then some c.aifs else none

/-- The AIFS of the last call that succeeds. -/
def lastTaken (calls : List BestEffortCall) : Option UInt8 := (calls.filterMap taken).getLast?

/-- Every call that fails asks for an AIFS with the EIFS of the last call before it that succeeds,
or with the initial one if there is none. -/
def FailuresAgree (eifsFor : UInt8 → UInt32) (eifs : UInt32) (calls : List BestEffortCall) : Prop :=
  ∀ pre c, pre ++ [c] <+: calls → c.ret ≠ 0 → eifsFor c.aifs = (lastTaken pre).elim eifs eifsFor

variable {eifsFor : UInt8 → UInt32} {eifs : UInt32} {calls : List BestEffortCall}
  {c : BestEffortCall}

theorem filterMap_taken_singleton (c : BestEffortCall) :
    [c].filterMap taken = if c.ret = 0 then [c.aifs] else [] := by
  rw [List.filterMap_cons, List.filterMap_nil, taken]
  by_cases hret : c.ret = 0
  · rw [if_pos hret, if_pos hret]
  · rw [if_neg hret, if_neg hret]

theorem lastTaken_concat :
    lastTaken (calls ++ [c]) = if c.ret = 0 then some c.aifs else lastTaken calls := by
  rw [lastTaken, List.filterMap_append, filterMap_taken_singleton]
  by_cases hret : c.ret = 0
  · rw [if_pos hret, if_pos hret, List.getLast?_concat]
  · rw [if_neg hret, if_neg hret, List.append_nil, lastTaken]

theorem failuresAgree_nil : FailuresAgree eifsFor eifs [] := by
  intro pre c hp
  simp at hp

theorem failuresAgree_concat :
    FailuresAgree eifsFor eifs (calls ++ [c]) ↔ FailuresAgree eifsFor eifs calls ∧
      (c.ret ≠ 0 → eifsFor c.aifs = (lastTaken calls).elim eifs eifsFor) := by
  constructor
  · intro h
    exact ⟨fun pre d hp ↦ h pre d (hp.trans (List.prefix_append calls [c])),
      h calls c (List.prefix_refl _)⟩
  · rintro ⟨h, hc⟩ pre d hp
    rcases List.prefix_concat_iff.mp hp with heq | hp'
    · obtain ⟨rfl, hd⟩ := List.append_inj' heq rfl
      obtain rfl := (List.cons.inj hd).1
      exact hc
    · exact h pre d hp'

end BestEffortCall

/-! ## The registers of the global timing -/

/-- A register that neither a queue nor the module owns. -/
def Reg.Global (r : Reg) : Prop := r ∈ [Reg.dGblIfsSlot, .dGblIfsSifs, .dGblIfsEifs]

theorem Reg.Global.notMem_map_dlclIfs {r : Reg} (h : r.Global) (qs : List ℕ) :
    r ∉ qs.map Reg.dlclIfs := by
  intro hmem
  obtain ⟨q, -, rfl⟩ := List.mem_map.mp hmem
  simp [Reg.Global] at h

section Steps

variable {K : Kernel} {X : TxqUpdate} {r : Reg}

/-- The handlers of the module leave the global timing alone. -/
theorem Took.regs_global {s t : Node} {e : Event} (h : Took K s e t) (hr : r.Global) :
    t.ah.regs r = s.ah.regs r := by
  have hquiet : ∀ (ah : AthHw) (restored : ℕ), (ah.forceQuiet restored).regs r = ah.regs r := by
    intro ah restored
    have hne : r ≠ .pcuMisc := by
      rintro rfl
      simp [Reg.Global] at hr
    simp only [AthHw.forceQuiet, AthHw.regSetBit, AthHw.regClrBit, AthHw.regRmw, if_neg hne]
  have hsample : ∀ txbuf, (s.sample txbuf).ah.regs r = s.ah.regs r := by
    intro txbuf
    rw [ah_sample, AthHw.regs_editContentionWindow _ (cwFor_lt _),
      if_neg (hr.notMem_map_dlclIfs _)]
  rcases h.samples_or_keeps with ⟨-, txbuf, hs⟩ | ⟨-, -, hah⟩
  · rcases hs.ah with hah | ⟨restored, hah⟩
    · rw [hah, hsample txbuf]
    · rw [hah, hquiet, hsample txbuf]
  · rw [hah]

namespace Configured

variable (s : Configured) {queue : UInt16} (params : TxQueueParams) (env : ℕ)

theorem reg_restore : (s.put (s.sc.ath9kPsRestore s.node.ah)).reg r = s.reg r := by
  have hah : (s.put (s.sc.ath9kPsRestore s.node.ah)).node.ah =
      (s.sc.ath9kPsRestore s.node.ah).2 := rfl
  rw [reg, hah, PowerSave.snd_ath9kPsRestore]
  split <;> rfl

theorem reg_updateEifs (aifs : UInt8) :
    (s.updateEifs aifs).reg r = if r = .dGblIfsEifs then s.eifsFor aifs else s.reg r := rfl

/-- The update of a queue leaves the global timing alone. -/
theorem regs_updated (ac : Fin 4) (hr : r.Global) :
    (s.updated X ac params env).1.regs r = s.reg r := by
  rw [updated, X.regs_gbl _ _ _ _ r hr, PowerSave.snd_ath9kPsWakeup]
  split <;> rfl

/-- **A call of `ath9k_conf_tx`** for the best-effort queue writes EIFS whatever it returns, and
touches nothing else of the global timing. -/
theorem reg_ath9kConfTx (queue : UInt16) (hr : r.Global) :
    (s.ath9kConfTx X queue params env).1.reg r =
      if r = .dGblIfsEifs ∧ queue = 2 ∧ s.eifsEqualToAifs = true then s.eifsFor params.aifs
      else s.reg r := by
  by_cases hqueue : queue.toNat < 4
  · have hkeep : ∀ r' : Reg, r'.Global →
        ((s.put (s.sc.ath9kPsWakeup s.node.ah)).setAh
          (s.updated X ⟨_, hqueue⟩ params env).1).reg r' = s.reg r' :=
      fun r' hr' ↦ s.regs_updated params env ⟨_, hqueue⟩ hr'
    have hfor : ((s.put (s.sc.ath9kPsWakeup s.node.ah)).setAh
        (s.updated X ⟨_, hqueue⟩ params env).1).eifsFor params.aifs = s.eifsFor params.aifs := by
      rw [eifsFor, hkeep _ (by simp [Reg.Global]), hkeep _ (by simp [Reg.Global]), eifsFor]
    have hwrite : ∀ (s' : Configured) (b : Prop) [Decidable b],
        (if b then s'.updateEifs params.aifs else s').reg r =
          if r = .dGblIfsEifs ∧ b then s'.eifsFor params.aifs else s'.reg r := by
      intro s' b _
      by_cases hb : b
      · rw [if_pos hb, reg_updateEifs]
        exact if_congr (and_iff_left hb).symm rfl rfl
      · rw [if_neg hb, if_neg fun h ↦ hb h.2]
    rw [ath9kConfTx, dif_pos hqueue, ← hfor, ← hkeep r hr]
    exact (reg_restore _).trans (hwrite _ _)
  · have hne : queue ≠ 2 := by
      rintro rfl
      exact hqueue (by decide)
    rw [ath9kConfTx_of_ge s params env hqueue, if_neg fun h ↦ hne h.2.1]

theorem eifsEqualToAifs_ath9kConfTx (queue : UInt16) :
    (s.ath9kConfTx X queue params env).1.eifsEqualToAifs = s.eifsEqualToAifs := by
  have hflag : ∀ (s' : Configured) (b : Prop) [Decidable b],
      (if b then s'.updateEifs params.aifs else s').eifsEqualToAifs = s'.eifsEqualToAifs := by
    intro s' b _
    split <;> rfl
  rw [ath9kConfTx]
  split
  · exact hflag _ _
  · rfl

end Configured

/-- What every step leaves as it was at the start. -/
structure Configured.Times (s t : Configured) : Prop where
  flag : t.eifsEqualToAifs = s.eifsEqualToAifs
  sifs : t.reg .dGblIfsSifs = s.reg .dGblIfsSifs
  slot : t.reg .dGblIfsSlot = s.reg .dGblIfsSlot

theorem Configured.Times.eifsFor {s t : Configured} (h : s.Times t) (aifs : UInt8) :
    t.eifsFor aifs = s.eifsFor aifs := by
  rw [Configured.eifsFor, h.sifs, h.slot, Configured.eifsFor]

theorem Configured.Times.step {s t u : Configured} {e : ConfEvent} (h : s.Times t)
    (hst : (configured K X).step t e = some u) : s.Times u := by
  cases e with
  | confTx queue params env =>
    obtain rfl := Option.some_inj.mp hst
    constructor
    · rw [Configured.eifsEqualToAifs_ath9kConfTx, h.flag]
    · rw [Configured.reg_ath9kConfTx _ _ _ _ (by simp [Reg.Global]), if_neg (by simp), h.sifs]
    · rw [Configured.reg_ath9kConfTx _ _ _ _ (by simp [Reg.Global]), if_neg (by simp), h.slot]
  | unlock e =>
    obtain ⟨n, hn, rfl⟩ := Option.map_eq_some_iff.mp hst
    have hkeep : ∀ r : Reg, r.Global → n.ah.regs r = t.node.ah.regs r := fun r hr ↦
      (Took.of_step hn).regs_global hr
    exact ⟨h.flag, (hkeep _ (by simp [Reg.Global])).trans h.sifs,
      (hkeep _ (by simp [Reg.Global])).trans h.slot⟩

/-- A best-effort configuration returns what `ath_txq_update` does. -/
theorem eifsChange_eq (s : Configured) (e : ConfEvent) :
    eifsChange X s e = (bestEffortCall X s e).filterMap BestEffortCall.taken := by
  cases e with
  | confTx queue params env =>
    rw [eifsChange, bestEffortCall]
    by_cases hbe : queue = 2
    · subst hbe
      rw [if_pos rfl, BestEffortCall.filterMap_taken_singleton,
        Configured.snd_ath9kConfTx s params env (by decide : (2 : UInt16).toNat < 4)]
      exact if_congr (and_iff_right rfl) rfl rfl
    · rw [if_neg fun h ↦ hbe h.1, if_neg hbe, List.filterMap_nil]
  | unlock e => rfl

theorem trackedEifs_eq (s : Configured) (es : List ConfEvent) :
    trackedEifs K X s es =
      (BestEffortCall.lastTaken (bestEffortCalls K X s es)).elim s.eifs s.eifsFor := by
  have hchange : eifsChange X =
      fun s e ↦ (bestEffortCall X s e).filterMap BestEffortCall.taken :=
    funext fun s ↦ funext (eifsChange_eq s)
  rw [trackedEifs, hchange, Machine.trace_filterMap, BestEffortCall.lastTaken, bestEffortCalls]

theorem bestEffortCall_cases (s : Configured) (e : ConfEvent) :
    bestEffortCall X s e = [] ∨ ∃ c, bestEffortCall X s e = [c] := by
  cases e with
  | confTx queue params env =>
    by_cases hbe : queue = 2
    · exact Or.inr ⟨_, if_pos hbe⟩
    · exact Or.inl (if_neg hbe)
  | unlock e => exact Or.inl rfl

/-- **One step.** EIFS goes with the AIFS of a best-effort configuration, whatever it returns. -/
theorem eifs_step {s t : Configured} {e : ConfEvent} (hflag : s.eifsEqualToAifs = true)
    (hst : (configured K X).step s e = some t) :
    t.eifs = (bestEffortCall X s e).getLast?.elim s.eifs fun c ↦ s.eifsFor c.aifs := by
  cases e with
  | confTx queue params env =>
    obtain rfl := Option.some_inj.mp hst
    rw [Configured.eifs, Configured.reg_ath9kConfTx _ _ _ _ (by simp [Reg.Global]), bestEffortCall]
    by_cases hbe : queue = 2
    · rw [if_pos ⟨rfl, hbe, hflag⟩, if_pos hbe]
      rfl
    · rw [if_neg fun h ↦ hbe h.2.1, if_neg hbe]
      rfl
  | unlock e =>
    obtain ⟨n, hn, rfl⟩ := Option.map_eq_some_iff.mp hst
    exact (Took.of_step hn).regs_global (by simp [Reg.Global])

end Steps

section Runs

variable {K : Kernel} {X : TxqUpdate} {s t : Configured} {es : List ConfEvent}

/-- **What EIFS follows, exactly.** Let the flag be set. After every part of a sequence of
configurations, among them any events of the module, EIFS goes with the AIFS of the last best-effort
configuration that returned zero, if and only if every best-effort configuration whose update fails
asks for an AIFS that comes to the same EIFS as the last one that succeeded before it. -/
theorem eifs_iff_of_run (hflag : s.eifsEqualToAifs = true)
    (h : (configured K X).run s es = some t) :
    (∀ pre, pre <+: es → ∀ u, (configured K X).run s pre = some u →
        u.eifs = trackedEifs K X s pre) ↔
      BestEffortCall.FailuresAgree s.eifsFor s.eifs (bestEffortCalls K X s es) := by
  refine Machine.run_induction (P := fun es _ ↦ (∀ pre, pre <+: es → ∀ u,
    (configured K X).run s pre = some u → u.eifs = trackedEifs K X s pre) ↔
      BestEffortCall.FailuresAgree s.eifsFor s.eifs (bestEffortCalls K X s es)) ?_ ?_ h
  · refine iff_of_true (fun pre hp u hu ↦ ?_) BestEffortCall.failuresAgree_nil
    rw [List.prefix_nil.mp hp] at hu ⊢
    exact congrArg Configured.eifs (Option.some_inj.mp hu).symm
  · intro es u e v hu ih huv
    have htimes : s.Times u :=
      Machine.invariant (P := s.Times) (fun _ _ _ hv hvw ↦ hv.step hvw) ⟨rfl, rfl, rfl⟩ hu
    have hstep : v.eifs = (bestEffortCall X u e).getLast?.elim u.eifs fun c ↦ s.eifsFor c.aifs := by
      rw [eifs_step (htimes.flag.trans hflag) huv]
      exact congrArg _ (funext fun c ↦ htimes.eifsFor c.aifs)
    have hcalls : bestEffortCalls K X s (es ++ [e]) =
        bestEffortCalls K X s es ++ bestEffortCall X u e := Machine.trace_concat _ e hu
    rw [Machine.forall_prefix_concat (Q := fun pre u ↦ u.eifs = trackedEifs K X s pre)
      (Machine.run_concat_eq_some.mpr ⟨u, hu, huv⟩), trackedEifs_eq, hcalls]
    rcases bestEffortCall_cases (X := X) u e with hnone | ⟨c, hone⟩
    · rw [hnone] at hstep ⊢
      rw [List.append_nil, ← ih]
      -- nothing is tracked anew, so EIFS is where it was
      refine and_iff_left_of_imp fun hes ↦ ?_
      rw [← trackedEifs_eq, ← hes es (List.prefix_refl es) u hu]
      exact hstep
    · rw [hone] at hstep ⊢
      rw [BestEffortCall.failuresAgree_concat, ← ih, BestEffortCall.lastTaken_concat]
      refine and_congr_right fun _ ↦ ?_
      have hv : v.eifs = s.eifsFor c.aifs := hstep
      by_cases hret : c.ret = 0
      · rw [if_pos hret, Option.elim_some]
        exact iff_of_true hv fun hne ↦ absurd hret hne
      · rw [if_neg hret, hv]
        exact ⟨fun heq _ ↦ heq, fun heq ↦ heq hret⟩

/-- A driver whose chip has its times set. -/
def timedConfigured : Configured :=
  defaultConfigured.setAh
    (((defaultConfigured.node.ah.regWrite .dGblIfsSlot 396).regWrite .dGblIfsSifs 704).regWrite
      .dGblIfsEifs 15000)

/-- A configuration of the best-effort queue that succeeds, its repetition, which fails, and one of
another queue that fails. -/
theorem eifs_iff_of_run_voice :
    ∃ t, (configured .linux .ath9k).run timedConfigured
        [.confTx 2 ⟨0, 15, 1023, 3⟩ 0, .confTx 2 ⟨0, 15, 1023, 3⟩ 1, .confTx 0 ⟨47, 3, 7, 2⟩ 1] =
          some t ∧ t.eifs = 1892 := by
  have hrun : ((configured .linux .ath9k).run timedConfigured
      [.confTx 2 ⟨0, 15, 1023, 3⟩ 0, .confTx 2 ⟨0, 15, 1023, 3⟩ 1,
        .confTx 0 ⟨47, 3, 7, 2⟩ 1]).isSome = true := by decide +kernel
  obtain ⟨t, ht⟩ := Option.isSome_iff_exists.mp hrun
  have htracked : trackedEifs .linux .ath9k timedConfigured
      [.confTx 2 ⟨0, 15, 1023, 3⟩ 0, .confTx 2 ⟨0, 15, 1023, 3⟩ 1,
        .confTx 0 ⟨47, 3, 7, 2⟩ 1] = 1892 := by decide +kernel
  have hcalls : bestEffortCalls .linux .ath9k timedConfigured
      [.confTx 2 ⟨0, 15, 1023, 3⟩ 0, .confTx 2 ⟨0, 15, 1023, 3⟩ 1, .confTx 0 ⟨47, 3, 7, 2⟩ 1] =
        [⟨3, 0⟩] ++ [⟨3, -5⟩] := by decide +kernel
  refine ⟨t, ht, htracked ▸ (eifs_iff_of_run rfl ht).mpr ?_ _ (List.prefix_refl _) t ht⟩
  rw [hcalls, BestEffortCall.failuresAgree_concat]
  refine ⟨BestEffortCall.failuresAgree_concat.mpr ⟨BestEffortCall.failuresAgree_nil, ?_⟩, ?_⟩
  · exact fun hret ↦ absurd rfl hret
  · exact fun _ ↦ rfl

/-- A best-effort configuration that fails moves EIFS from 15000 to the 1892 that goes with its
AIFS, which the hardware queue has not taken. -/
theorem exists_lost_eifs :
    ∃ t, (configured .linux .ath9k).run timedConfigured [.confTx 2 ⟨0, 15, 1023, 3⟩ 1] = some t ∧
      (timedConfigured.ath9kConfTx .ath9k 2 ⟨0, 15, 1023, 3⟩ 1).2 = -5 ∧
      timedConfigured.eifs = 15000 ∧ t.eifs = 1892 ∧ t.aifs 2 = timedConfigured.aifs 2 ∧
      t.eifs ≠ trackedEifs .linux .ath9k timedConfigured [.confTx 2 ⟨0, 15, 1023, 3⟩ 1] :=
  ⟨_, rfl, by decide +kernel, by decide +kernel, by decide +kernel, by decide +kernel,
    by decide +kernel⟩

end Runs

end UcsmaRateControl
