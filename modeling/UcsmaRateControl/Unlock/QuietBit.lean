import UcsmaRateControl.Unlock.Sampling

/-!
# Who has the last word on `AR_PCU_FORCE_QUIET_COLL`

Two modules change this bit of `AR_PCU_MISC`. An accepted pulse of `unlock.c` sets it for the length
of the backoff and clears it. A tick of `flip_quiet_coll_bit.c` clears it for the length of a
release and sets it. Neither puts it back when it is unloaded, so what stays behind is what came
last.

The callback of the release timer runs with interrupts on, so the handlers of `unlock.c` can come
between any two of its register accesses, also between the read and the write of one
`ath9k_reg_rmw`. Loading and unloading happen in a process, which on a single core waits for all of
them.
-/

namespace UcsmaRateControl

/-! ## Loading and unloading -/

/-- How far `release_force_quiet_coll` has got. -/
inductive Release
  /-- It is not running. -/
  | idle
  /-- It is about to read the register to clear the bit. -/
  | clearRead
  /-- It is about to write back what it has read, with the bit cleared. -/
  | clearWrite (val : UInt32)
  /-- It is about to read the register to set the bit. -/
  | setRead
  /-- It is about to write back what it has read, with the bit set. -/
  | setWrite (val : UInt32)
  /-- It is about to start its timer again. -/
  | modTimer
deriving DecidableEq

/-- The two modules and the chip they share. -/
structure TwoModules where
  /-- `unlock.c`, and the chip. -/
  node : Node
  /-- What is left of `unlock_exit`, while `unlock.c` is loaded. -/
  exiting : Option (List ExitStep)
  /-- Whether `flip_quiet_coll_bit.c` is loaded. -/
  releaseLoaded : Bool
  /-- Whether `release_timer` is pending. -/
  releaseTimer : Bool
  /-- The callback of `release_timer`. -/
  release : Release

/-- What can happen to them. -/
inductive ModuleEvent
  /-- `unlock.c` is loaded, with its parameters. -/
  | insmodUnlock (T Delta : UInt32) (i : InitInput)
  /-- The next statement of `unlock_exit` is executed. -/
  | rmmodUnlock
  /-- `unlock.c` takes an event. -/
  | unlock (e : Event)
  /-- `flip_quiet_coll_bit.c` is loaded. -/
  | insmodRelease
  /-- `flip_quiet_coll_bit.c` is unloaded. -/
  | rmmodRelease
  /-- `release_timer` expires. -/
  | releaseTick
  /-- The callback of `release_timer` goes on by one access. -/
  | releaseNext

namespace TwoModules

variable (s : TwoModules)

/-- `AR_PCU_MISC`. -/
def pcuMisc : UInt32 := s.node.ah.regs .pcuMisc

/-- The mask of the bit. -/
def mask : UInt32 := s.node.ah.forceQuietColl

/-- Replace the chip. -/
def setAh (ah : AthHw) : TwoModules := { s with node := { s.node with ah } }

/-- The variables of `unlock.c` before `unlock_init`. -/
def fresh (T Delta : UInt32) : Globals :=
  { defaultGlobals s.node.txbufFff with T, Delta, ah := s.node.ah }

/-- `insmod` of `unlock.c`. If `unlock_init` fails, the module is not loaded. -/
def insmodUnlock (T Delta : UInt32) (i : InitInput) : TwoModules :=
  if (unlockInit (s.fresh T Delta) i).2 = 0 then
    { s with node := Node.boot (s.fresh T Delta) i, exiting := some unlockExit }
  else s.setAh (unlockInit (s.fresh T Delta) i).1.ah

/-- One access of `release_force_quiet_coll`. -/
def releaseNext : Option TwoModules :=
  match s.release with
  | .idle => none
  | .clearRead =>
    some { s.setAh (s.node.ah.regRead .pcuMisc).1 with release := .clearWrite s.pcuMisc }
  | .clearWrite val =>
    some { s.setAh (s.node.ah.regWrite .pcuMisc ((val &&& ~~~s.mask) ||| 0)) with
      release := .setRead }
  | .setRead =>
    some { s.setAh (s.node.ah.regRead .pcuMisc).1 with release := .setWrite s.pcuMisc }
  | .setWrite val =>
    some { s.setAh (s.node.ah.regWrite .pcuMisc ((val &&& ~~~0) ||| s.mask)) with
      release := .modTimer }
  | .modTimer => some { s with releaseTimer := true, release := .idle }

/-- A process can run: no handler occupies the core. -/
structure Idle : Prop where
  running : s.node.halted = none
  release : s.release = .idle

instance : Decidable s.Idle :=
  decidable_of_iff (s.node.halted = none ∧ s.release = .idle)
    ⟨fun ⟨h1, h2⟩ ↦ ⟨h1, h2⟩, fun ⟨h1, h2⟩ ↦ ⟨h1, h2⟩⟩

/-- Neither module is loaded, and no handler is running. -/
structure Unloaded : Prop where
  exiting : s.exiting = none
  releaseLoaded : s.releaseLoaded = false
  release : s.release = .idle

end TwoModules

instance (s : TwoModules) : Decidable s.Unloaded :=
  decidable_of_iff (s.exiting = none ∧ s.releaseLoaded = false ∧ s.release = .idle)
    ⟨fun ⟨h1, h2, h3⟩ ↦ ⟨h1, h2, h3⟩, fun ⟨h1, h2, h3⟩ ↦ ⟨h1, h2, h3⟩⟩

/-- The machine of the two modules. -/
def twoModules (K : Kernel) : Machine TwoModules ModuleEvent where
  step s
    | .insmodUnlock T Delta i =>
      if s.Idle ∧ s.exiting = none ∧ s.node.clock ≤ i.stamp ∧ i.stamp ≤ i.started then
        some (s.insmodUnlock T Delta i)
      else none
    | .rmmodUnlock =>
      match s.exiting with
      | some (x :: xs) =>
        if s.Idle then
          some { s with
            node := { s.node with toGlobals := x.run s.node.toGlobals }
            exiting := if xs = [] then none else some xs }
        else none
      | _ => none
    | .unlock e =>
      if s.exiting.isSome = true then
        ((unlockNode K).step s.node e).map fun node ↦ { s with node }
      else none
    | .insmodRelease =>
      -- `setup_timer` leaves the timer inactive, so that `mod_timer` returns zero
      if s.Idle ∧ s.releaseLoaded = false then
        some { s with releaseLoaded := true, releaseTimer := true }
      else none
    | .rmmodRelease =>
      if s.Idle ∧ s.releaseLoaded = true then
        some { s with releaseLoaded := false, releaseTimer := false }
      else none
    | .releaseTick =>
      if s.Idle ∧ s.releaseTimer = true then
        some { s with releaseTimer := false, release := .clearRead }
      else none
    | .releaseNext => if s.node.halted = none then s.releaseNext else none

/-! ## Masks -/

section Mask

variable (a m : UInt32)

theorem or_and_right (b : UInt32) : (a ||| b) &&& m = (a &&& m) ||| (b &&& m) :=
  UInt32.toBitVec_inj.mp BitVec.and_or_distrib_right

theorem or_and_self : (a ||| m) &&& m = m := by
  apply UInt32.toBitVec_inj.mp
  ext i
  simp only [UInt32.toBitVec_and, UInt32.toBitVec_or, BitVec.getElem_and, BitVec.getElem_or]
  cases m.toBitVec[i] <;> simp

theorem or_and_not : (a ||| m) &&& ~~~m = a &&& ~~~m := by
  rw [or_and_right, UInt32.and_not_self, UInt32.or_zero]

theorem and_not_and_self : (a &&& ~~~m) &&& m = 0 := by
  rw [UInt32.and_assoc, UInt32.not_and_self, UInt32.and_zero]

theorem and_not_and_not : (a &&& ~~~m) &&& ~~~m = a &&& ~~~m := by
  rw [UInt32.and_assoc, UInt32.and_self]

end Mask

/-! ## What the handlers of the module do to the register -/

section Chip

/-- A bit that is set and cleared is clear. -/
theorem AthHw.regs_forceQuiet_pcuMisc (ah : AthHw) (restored : ℕ) :
    (ah.forceQuiet restored).regs .pcuMisc = ah.regs .pcuMisc &&& ~~~ah.forceQuietColl := by
  calc (ah.forceQuiet restored).regs .pcuMisc
      = ((ah.regs .pcuMisc &&& ~~~0 ||| ah.forceQuietColl) &&& ~~~ah.forceQuietColl) ||| 0 := rfl
    _ = ah.regs .pcuMisc &&& ~~~ah.forceQuietColl := by
      rw [UInt32.or_zero, or_and_not, UInt32.not_zero, UInt32.and_neg_one]

theorem AthHw.regs_editContentionWindow_pcuMisc (ah : AthHw) {c : UInt32} (hc : c < 1024) :
    (ah.editContentionWindow c).regs .pcuMisc = ah.regs .pcuMisc := by
  have hmem : Reg.pcuMisc ∉ (List.range 8).map Reg.dlclIfs := by decide
  rw [regs_editContentionWindow ah hc, if_neg hmem]

theorem pcuMisc_sample (g : Globals) (txbuf : ListHead) :
    (g.sample txbuf).ah.regs .pcuMisc = g.ah.regs .pcuMisc := by
  rw [ah_sample]
  exact AthHw.regs_editContentionWindow_pcuMisc _ (cwFor_lt _)

theorem forceQuietColl_sample (g : Globals) (txbuf : ListHead) :
    (g.sample txbuf).ah.forceQuietColl = g.ah.forceQuietColl := by
  rw [ah_sample, AthHw.forceQuietColl_editContentionWindow]

/-- The event is a pulse that is accepted and served to the end. -/
def Node.Serves (s : Node) : Event → Prop
  | .pulse i => s.Accepts i ∧ s.Delta + s.Delta ≠ 0
  | _ => False

instance (s : Node) : (e : Event) → Decidable (s.Serves e)
  | .pulse _ => inferInstanceAs (Decidable (_ ∧ _))
  | .fire _ _ | .setT _ | .setDelta _ | .txbuf _ | .tick _ => inferInstanceAs (Decidable False)

section Steps

variable {K : Kernel} {s t : Node} {e : Event}

/-- No step of the module changes the mask. -/
theorem Took.forceQuietColl (h : Took K s e t) : t.ah.forceQuietColl = s.ah.forceQuietColl := by
  cases h with
  | fireSome i garbage due txbuf => exact forceQuietColl_sample s.toGlobals txbuf
  | pulseRejects i arrives free txbuf => exact forceQuietColl_sample s.toGlobals txbuf
  | pulseTraps i arrives txbuf => exact forceQuietColl_sample s.toGlobals txbuf
  | pulseAccepts i arrives txbuf => exact forceQuietColl_sample s.toGlobals txbuf
  | _ => rfl

/-- A pulse that is served leaves the bit clear, and nothing else in the module touches it. -/
theorem Took.pcuMisc (h : Took K s e t) :
    t.ah.regs .pcuMisc =
      if s.Serves e then s.ah.regs .pcuMisc &&& ~~~s.ah.forceQuietColl
      else s.ah.regs .pcuMisc := by
  cases h with
  | fireSome i garbage due txbuf => exact pcuMisc_sample s.toGlobals txbuf
  | pulseSpins i arrives locked =>
    rw [if_neg fun hs ↦ Globals.not_accepts_of_locked locked hs.1]
  | pulseNull i arrives free null =>
    rw [if_neg fun hs ↦ Globals.not_accepts_of_null null hs.1]
  | pulseRejects i arrives free txbuf list rejects =>
    rw [if_neg fun hs ↦ Globals.not_accepts_of_rejects rejects hs.1]
    exact pcuMisc_sample s.toGlobals txbuf
  | pulseTraps i arrives txbuf list accepts zero =>
    rw [if_neg fun hs ↦ hs.2 zero]
    exact pcuMisc_sample s.toGlobals txbuf
  | pulseAccepts i arrives txbuf list accepts nonzero =>
    rw [if_pos ⟨accepts, nonzero⟩, ← pcuMisc_sample s.toGlobals txbuf,
      ← forceQuietColl_sample s.toGlobals txbuf]
    exact AthHw.regs_forceQuiet_pcuMisc _ _
  | _ => rfl

end Steps

/-- `unlock_init` touches neither the register nor the mask. -/
theorem unlockInit_quiet (g : Globals) (i : InitInput) :
    (unlockInit g i).1.ah.regs .pcuMisc = g.ah.regs .pcuMisc ∧
      (unlockInit g i).1.ah.forceQuietColl = g.ah.forceQuietColl := by
  simp only [unlockInit]
  split_ifs
  · exact ⟨rfl, rfl⟩
  · exact ⟨rfl, rfl⟩
  · exact ⟨rfl, rfl⟩
  · exact ⟨AthHw.regs_editContentionWindow_pcuMisc _ (by decide),
      AthHw.forceQuietColl_editContentionWindow _ _⟩

end Chip

/-! ## What the history says -/

/-- What an event does to the bit: `true` for setting it. -/
def quietChange (s : TwoModules) : ModuleEvent → List Bool
  | .unlock e => if s.node.Serves e then [false] else []
  | .releaseNext =>
    match s.release with
    | .clearWrite _ => [false]
    | .setWrite _ => [true]
    | _ => []
  | _ => []

/-- What a run does to the bit. -/
def quietChanges (K : Kernel) (s : TwoModules) (es : List ModuleEvent) : List Bool :=
  (twoModules K).trace quietChange s es

section Runs

variable {K : Kernel} {s t : TwoModules} {e : ModuleEvent} {es : List ModuleEvent}

/-- What the callback has read and not yet written back. -/
def Release.read : Release → Option UInt32
  | .clearWrite val | .setWrite val => some val
  | _ => none

/-- What a step does to the register, by the changes it puts out. -/
inductive Written (s t : TwoModules) : List Bool → Prop
  | kept (misc : t.pcuMisc = s.pcuMisc) : Written s t []
  | cleared (val : UInt32) (source : val = s.pcuMisc ∨ s.release.read = some val)
      (misc : t.pcuMisc = val &&& ~~~s.mask) : Written s t [false]
  | set (val : UInt32) (source : s.release.read = some val) (misc : t.pcuMisc = val ||| s.mask) :
      Written s t [true]

/-- What a step does to the bit. -/
structure Changed (s t : TwoModules) (l : List Bool) : Prop where
  mask : t.mask = s.mask
  read : ∀ val, t.release.read = some val → val = s.pcuMisc ∨ s.release.read = some val
  written : Written s t l

/-- A step that leaves the callback alone. -/
theorem Changed.of_release {l : List Bool} (hmask : t.mask = s.mask)
    (hrelease : t.release = s.release) (hwritten : Written s t l) : Changed s t l :=
  ⟨hmask, fun _ hval ↦ .inr (by rw [← hrelease, hval]), hwritten⟩

/-- A step after which the callback has nothing to write back. -/
theorem Changed.of_read {l : List Bool} (hmask : t.mask = s.mask) (hread : t.release.read = none)
    (hwritten : Written s t l) : Changed s t l :=
  ⟨hmask, fun val hval ↦ absurd (hread.symm.trans hval) (Option.some_ne_none val).symm, hwritten⟩

theorem TwoModules.changed_releaseNext (h : s.releaseNext = some t) :
    Changed s t (quietChange s .releaseNext) := by
  rw [quietChange]
  cases hrelease : s.release with
  | idle =>
    simp only [releaseNext, hrelease] at h
    exact nomatch h
  | clearRead | setRead =>
    simp only [releaseNext, hrelease, Option.some_inj] at h
    subst h
    exact ⟨rfl, fun val hval ↦ .inl (Option.some_inj.mp hval).symm, .kept rfl⟩
  | clearWrite val =>
    simp only [releaseNext, hrelease, Option.some_inj] at h
    subst h
    refine .of_read rfl rfl (.cleared val (.inr ?_) UInt32.or_zero)
    rw [hrelease, Release.read]
  | setWrite val =>
    simp only [releaseNext, hrelease, Option.some_inj] at h
    subst h
    refine .of_read rfl rfl (.set val ?_ (congrArg (· ||| s.mask) UInt32.and_neg_one))
    rw [hrelease, Release.read]
  | modTimer =>
    simp only [releaseNext, hrelease, Option.some_inj] at h
    subst h
    exact .of_read rfl rfl (.kept rfl)

theorem rmmodUnlock_eq_some (h : (twoModules K).step s .rmmodUnlock = some t) :
    ∃ x xs, s.exiting = some (x :: xs) ∧ s.Idle ∧
      t = { s with
        node := { s.node with toGlobals := x.run s.node.toGlobals }
        exiting := if xs = [] then none else some xs } := by
  match hexit : s.exiting with
  | none =>
    simp only [twoModules, hexit] at h
    exact nomatch h
  | some [] =>
    simp only [twoModules, hexit] at h
    exact nomatch h
  | some (x :: xs) =>
    simp only [twoModules, hexit] at h
    obtain ⟨hidle, ht⟩ := Option.ite_none_right_eq_some.mp h
    exact ⟨x, xs, rfl, hidle, (Option.some_inj.mp ht).symm⟩

/-- No statement of `unlock_exit` touches the register or the mask. -/
theorem ExitStep.run_quiet (x : ExitStep) (g : Globals) :
    (x.run g).ah.regs .pcuMisc = g.ah.regs .pcuMisc ∧
      (x.run g).ah.forceQuietColl = g.ah.forceQuietColl := by
  cases x <;> exact ⟨rfl, rfl⟩

/-- **The inversion of a step**, as far as the bit is concerned. -/
theorem changed_step (hst : (twoModules K).step s e = some t) :
    Changed s t (quietChange s e) := by
  cases e with
  | insmodUnlock T Delta i =>
    obtain ⟨-, ⟨⟩⟩ := Option.ite_none_right_eq_some.mp hst
    obtain ⟨hmisc, hmask⟩ := unlockInit_quiet (s.fresh T Delta) i
    rw [TwoModules.insmodUnlock]
    split <;> exact .of_release hmask rfl (.kept hmisc)
  | rmmodUnlock =>
    obtain ⟨x, xs, -, -, rfl⟩ := rmmodUnlock_eq_some hst
    obtain ⟨hmisc, hmask⟩ := x.run_quiet s.node.toGlobals
    exact .of_release hmask rfl (.kept hmisc)
  | unlock e =>
    obtain ⟨-, hst⟩ := Option.ite_none_right_eq_some.mp hst
    obtain ⟨u, hu, rfl⟩ := Option.map_eq_some_iff.mp hst
    have htook := Took.of_step hu
    refine .of_release htook.forceQuietColl rfl ?_
    rw [quietChange]
    by_cases hserves : s.node.Serves e
    · rw [if_pos hserves]
      exact .cleared _ (.inl rfl) (htook.pcuMisc.trans (if_pos hserves))
    · rw [if_neg hserves]
      exact .kept (htook.pcuMisc.trans (if_neg hserves))
  | insmodRelease =>
    obtain ⟨-, ⟨⟩⟩ := Option.ite_none_right_eq_some.mp hst
    exact .of_release rfl rfl (.kept rfl)
  | rmmodRelease =>
    obtain ⟨-, ⟨⟩⟩ := Option.ite_none_right_eq_some.mp hst
    exact .of_release rfl rfl (.kept rfl)
  | releaseTick =>
    obtain ⟨-, ⟨⟩⟩ := Option.ite_none_right_eq_some.mp hst
    exact .of_read rfl rfl (.kept rfl)
  | releaseNext =>
    obtain ⟨-, hst⟩ := Option.ite_none_right_eq_some.mp hst
    exact TwoModules.changed_releaseNext hst

/-! ## The bit along a run -/

/-- What is kept while the two modules come and go: the mask, the other bits, and these in what the
callback has read and not yet written back. -/
structure TwoModules.Keeps (m base : UInt32) (s : TwoModules) : Prop where
  mask : s.mask = m
  others : s.pcuMisc &&& ~~~m = base
  read : ∀ val, s.release.read = some val → val &&& ~~~m = base

theorem TwoModules.Unloaded.keeps (h : s.Unloaded) : s.Keeps s.mask (s.pcuMisc &&& ~~~s.mask) :=
  ⟨rfl, rfl, fun val hval ↦ by rw [h.release] at hval; exact nomatch hval⟩

theorem TwoModules.Keeps.step {m base : UInt32} (h : s.Keeps m base)
    (hst : (twoModules K).step s e = some t) : t.Keeps m base := by
  obtain ⟨hmask, hread, hwritten⟩ := changed_step hst
  have hsource : ∀ val, val = s.pcuMisc ∨ s.release.read = some val → val &&& ~~~m = base := by
    rintro val (rfl | hval)
    · exact h.others
    · exact h.read val hval
  refine ⟨hmask.trans h.mask, ?_, fun val hval ↦ hsource val (hread val hval)⟩
  generalize quietChange s e = l at hwritten
  cases hwritten with
  | kept misc => exact misc ▸ h.others
  | cleared val source misc => rw [misc, h.mask, and_not_and_not, hsource val source]
  | set val source misc => rw [misc, h.mask, or_and_not, hsource val (.inr source)]

theorem TwoModules.Keeps.of_run {m base : UInt32} (h : s.Keeps m base)
    (hrun : (twoModules K).run s es = some t) : t.Keeps m base :=
  Machine.invariant (fun _ _ _ hu huv ↦ hu.step huv) h hrun

/-- The bit is what the last change has made of it. -/
theorem pcuMisc_of_run (hs : s.Unloaded) (h : (twoModules K).run s es = some t) :
    t.pcuMisc &&& s.mask =
      (quietChanges K s es).getLast?.elim (s.pcuMisc &&& s.mask) fun b ↦
        if b = true then s.mask else 0 := by
  refine Machine.observe_of_run (fun u : TwoModules ↦ u.pcuMisc &&& s.mask) _ ?_ h
  intro pre u e v hu huv
  have hmask : u.mask = s.mask := (hs.keeps.of_run hu).mask
  have hwritten := (changed_step huv).written
  generalize quietChange u e = l at hwritten
  cases hwritten with
  | kept misc => exact congrArg (· &&& s.mask) misc
  | cleared val source misc =>
    refine (congrArg (· &&& s.mask) misc).trans ?_
    rw [hmask]
    exact and_not_and_self val s.mask
  | set val source misc =>
    refine (congrArg (· &&& s.mask) misc).trans ?_
    rw [hmask]
    exact or_and_self val s.mask

/-- **The bit that is left behind, exactly.** From a point where neither module is loaded, the other
bits of `AR_PCU_MISC` never change. At every later point, and so whenever neither module is loaded
again, the bit has the value it had at first, if and only if the last change before that point, if
any, gave it that value: a pulse that is served clears it, a tick of the release timer sets it. -/
theorem restored_iff_of_run (hs : s.Unloaded) (h : (twoModules K).run s es = some t) :
    t.pcuMisc &&& ~~~s.mask = s.pcuMisc &&& ~~~s.mask ∧
      (t.pcuMisc &&& s.mask = s.pcuMisc &&& s.mask ↔
        ∀ b ∈ (quietChanges K s es).getLast?,
          s.pcuMisc &&& s.mask = if b = true then s.mask else 0) := by
  refine ⟨(hs.keeps.of_run h).others, ?_⟩
  rw [pcuMisc_of_run hs h]
  cases (quietChanges K s es).getLast? with
  | none => exact iff_of_true rfl nofun
  | some b =>
    rw [eq_comm]
    exact ⟨fun heq _ hb ↦ Option.some_inj.mp hb ▸ heq, fun hall ↦ hall b rfl⟩

/-- Neither module is loaded yet. -/
def twoUnloaded (misc : UInt32) : TwoModules :=
  ⟨{ defaultNode (some .empty) with
      ah := (defaultGlobals none).ah.regWrite .pcuMisc misc }, none, false, false, .idle⟩

/-- `flip_quiet_coll_bit.c` is loaded, its timer expires once, and it is unloaded. -/
def flipOnce : List ModuleEvent :=
  [.insmodRelease, .releaseTick, .releaseNext, .releaseNext, .releaseNext, .releaseNext,
    .releaseNext, .rmmodRelease]

/-- On a chip whose bit is set, one tick leaves it as it was. -/
theorem restored_iff_of_run_flipOnce :
    ∃ t, (twoModules .linux).run (twoUnloaded 0x00040000) flipOnce = some t ∧
      t.pcuMisc &&& (twoUnloaded 0x00040000).mask =
        (twoUnloaded 0x00040000).pcuMisc &&& (twoUnloaded 0x00040000).mask := by
  have hrun : ((twoModules .linux).run (twoUnloaded 0x00040000) flipOnce).isSome = true := by
    decide +kernel
  obtain ⟨t, ht⟩ := Option.isSome_iff_exists.mp hrun
  exact ⟨t, ht, (restored_iff_of_run ⟨rfl, rfl, rfl⟩ ht).2.mpr (by decide +kernel)⟩

/-- On a chip whose bit is clear, one tick leaves it set: the node stays muted. -/
theorem exists_muted :
    ∃ t, (twoModules .linux).run (twoUnloaded 0) flipOnce = some t ∧
      (twoUnloaded 0).Unloaded ∧ t.Unloaded ∧
      (twoUnloaded 0).pcuMisc &&& (twoUnloaded 0).mask = 0 ∧
      t.pcuMisc &&& (twoUnloaded 0).mask = (twoUnloaded 0).mask ∧ (twoUnloaded 0).mask ≠ 0 := by
  have heval : ((twoModules .linux).run (twoUnloaded 0) flipOnce).any (fun t ↦
      decide (t.Unloaded ∧ t.pcuMisc &&& (twoUnloaded 0).mask = (twoUnloaded 0).mask)) = true := by
    decide +kernel
  obtain ⟨t, ht, hcond⟩ := (Option.any_eq_true _ _).mp heval
  obtain ⟨hunloaded, hset⟩ := of_decide_eq_true hcond
  exact ⟨t, ht, ⟨rfl, rfl, rfl⟩, hunloaded, by decide +kernel, hset, by decide +kernel⟩

end Runs

end UcsmaRateControl
