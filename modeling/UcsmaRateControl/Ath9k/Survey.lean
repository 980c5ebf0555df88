import Mathlib.Data.List.Nodup
import Mathlib.Logic.Function.Basic
import Mathlib.Tactic.SplitIfs
import UcsmaRateControl.Machine.Run
import UcsmaRateControl.Machine.Tally

/-!
# The survey of the channels

The driver keeps a record of each channel, of how long it was busy and how noisy it was. It measures
the channel the chip is tuned to. One record is marked as in use, that of the operating channel; the
chip also leaves it for a while, to scan. The record of a channel is cleared when the driver
switches to it, except that of the operating channel when it comes back from a scan.

The branches of `ath_set_channel` look at the marks and at the pointer to the record in use. What
they come to is a plain rule: a switch to a channel clears its record unless that is the operating
channel (`data_switchSurvey`).
-/

namespace UcsmaRateControl

/-- `survey_info`. -/
structure SurveyInfo (δ : Type*) where
  /-- `SURVEY_INFO_IN_USE`. -/
  inUse : Bool
  /-- Everything else that is measured. -/
  data : δ

/-- The channels of the chip, by their `hw_value`, and how they are measured. -/
structure SurveyConfig (ι δ μ : Type*) where
  /-- `bands[IEEE80211_BAND_2GHZ]`. -/
  band2ghz : Option (List ι)
  /-- `bands[IEEE80211_BAND_5GHZ]`. -/
  band5ghz : Option (List ι)
  /-- `CPTCFG_ATH9K_TX99`. -/
  tx99 : Bool
  /-- A record after `memset`. -/
  zero : δ
  /-- What `ath_update_survey_stats` and `ath_update_survey_nf` make of a record. They leave its
  mark alone. -/
  measure : μ → δ → δ
  nodup : (band2ghz.getD [] ++ band5ghz.getD []).Nodup

/-- The channels of both bands. -/
def SurveyConfig.channels {ι δ μ : Type*} (C : SurveyConfig ι δ μ) : List ι :=
  C.band2ghz.getD [] ++ C.band5ghz.getD []

/-- What `ath_reset_internal` comes to. -/
structure ResetResult where
  r : Int32
  /-- Whether `curchan` is the new channel. -/
  tuned : Bool
  tuned_of_ok : r = 0 → tuned = true

/-- The records of the channels. -/
structure Surveys (ι δ : Type*) where
  survey : ι → SurveyInfo δ
  /-- `cur_survey`, by its index. -/
  curSurvey : Option ι
  /-- The channel the chip is tuned to. -/
  curchan : Option ι
  /-- `ATH_OP_INVALID`. -/
  invalid : Bool

variable {ι δ μ : Type*} [DecidableEq ι]

namespace Surveys

variable (C : SurveyConfig ι δ μ) (s : Surveys ι δ)

/-- The records when the device has been allocated. -/
def fresh (C : SurveyConfig ι δ μ) (curchan : Option ι) : Surveys ι δ where
  survey _ := ⟨false, C.zero⟩
  curSurvey := none
  curchan := curchan
  invalid := true

/-- Measure a channel. -/
def record (pos : ι) (m : μ) : Surveys ι δ :=
  { s with
    survey :=
      Function.update s.survey pos { s.survey pos with data := C.measure m (s.survey pos).data } }

/-- `ath_update_survey_stats`. -/
def athUpdateSurveyStats (m : μ) : Surveys ι δ :=
  match s.curchan with
  | some pos => s.record C pos m
  | none => s

/-- `ath_update_survey_nf`. -/
def athUpdateSurveyNf (pos : ι) (m : μ) : Surveys ι δ := s.record C pos m

/-- Set or clear the mark of a record. -/
def setInUse (pos : ι) (v : Bool) : Surveys ι δ :=
  { s with survey := Function.update s.survey pos { s.survey pos with inUse := v } }

/-- The `memset` of a record. -/
def clear (pos : ι) : Surveys ι δ :=
  { s with survey := Function.update s.survey pos ⟨false, C.zero⟩ }

/-- The branches of `ath_set_channel` on the records. -/
def switchSurvey (pos : ι) (offchannel : Bool) : Surveys ι δ :=
  if offchannel = false ∧ s.curSurvey ≠ some pos then
    let s := s.curSurvey.elim s fun p ↦ s.setInUse p false
    let s := { s with curSurvey := some pos }
    (s.clear C pos).setInUse pos true
  else if (s.survey pos).inUse = false then s.clear C pos
  else s

/-- `ath_set_channel`. -/
def athSetChannel (pos : ι) (offchannel : Bool) (stats : μ) (reset : ResetResult) (nf : μ) :
    Surveys ι δ × Int32 :=
  if s.invalid then (s, -5)
  else
    let oldPos := s.curchan
    let s := s.athUpdateSurveyStats C stats
    let s := s.switchSurvey C pos offchannel
    let s := if reset.tuned then { s with curchan := some pos } else s
    if reset.r ≠ 0 then (s, reset.r)
    else (oldPos.elim s fun p ↦ s.athUpdateSurveyNf C p nf, 0)

/-- `ath9k_get_survey`. -/
def ath9kGetSurvey (idx : ℕ) (stats : μ) : Surveys ι δ × Except Int32 (ι × SurveyInfo δ) :=
  if C.tx99 then (s, .error (-95))
  else
    let s := if idx = 0 then s.athUpdateSurveyStats C stats else s
    let (sband, idx) :=
      match C.band2ghz with
      | some chans => if idx ≥ chans.length then (none, idx - chans.length) else (some chans, idx)
      | none => (none, idx)
    let sband := if sband.isNone then C.band5ghz else sband
    match sband with
    | none => (s, .error (-2))
    | some chans =>
      match chans[idx]? with
      | none => (s, .error (-2))
      | some pos => (s, .ok (pos, s.survey pos))

end Surveys

/-- What happens to the records. -/
inductive SurveyEvent (ι μ : Type*)
  /-- `ath9k_config` sets the channel. -/
  | setChannel (pos : ι) (offchannel : Bool) (stats : μ) (reset : ResetResult) (nf : μ)
  /-- `ath9k_get_survey`. -/
  | getSurvey (idx : ℕ) (stats : μ)
  /-- The driver measures from elsewhere. -/
  | updateStats (stats : μ)
  /-- `ath9k_start` resets the chip to a channel. -/
  | start (pos : ι) (tuned : Bool)
  /-- `ath9k_stop`, with the channel that has been configured. -/
  | stop (pos : ι)

/-- The machine of the records. Only channels that the chip has are set. -/
def surveys (C : SurveyConfig ι δ μ) : Machine (Surveys ι δ) (SurveyEvent ι μ) where
  step s
    | .setChannel pos offchannel stats reset nf =>
      if pos ∈ C.channels then some (s.athSetChannel C pos offchannel stats reset nf).1 else none
    | .getSurvey idx stats => some (s.ath9kGetSurvey C idx stats).1
    | .updateStats stats => some (s.athUpdateSurveyStats C stats)
    | .start pos tuned =>
      some { s with curchan := if tuned then some pos else s.curchan, invalid := false }
    | .stop pos =>
      if s.invalid then some s
      else some { s with curchan := s.curchan <|> some pos, invalid := true }

/-! ## One step -/

namespace Surveys

variable {C : SurveyConfig ι δ μ} {s t : Surveys ι δ}

/-- The mark is on the record that the pointer points to, and on no other. -/
def Marked (s : Surveys ι δ) : Prop := ∀ q, (s.survey q).inUse = true ↔ s.curSurvey = some q

theorem Marked.inUse_eq (h : s.Marked) (q : ι) :
    (s.survey q).inUse = decide (s.curSurvey = some q) :=
  Bool.eq_iff_iff.mpr ((h q).trans (decide_eq_true_iff).symm)

/-! ### Measuring -/

theorem survey_record (p : ι) (m : μ) :
    (s.record C p m).survey =
      Function.update s.survey p ⟨(s.survey p).inUse, C.measure m (s.survey p).data⟩ := rfl

theorem inUse_record (p : ι) (m : μ) (q : ι) :
    ((s.record C p m).survey q).inUse = (s.survey q).inUse := by
  rw [survey_record, Function.update_apply]
  split_ifs with hq
  · rw [hq]
  · rfl

theorem data_record (p : ι) (m : μ) (q : ι) :
    ((s.record C p m).survey q).data =
      if p = q then C.measure m (s.survey q).data else (s.survey q).data := by
  rw [survey_record, Function.update_apply]
  by_cases hq : q = p
  · rw [if_pos hq, if_pos hq.symm, hq]
  · rw [if_neg hq, if_neg (Ne.symm hq)]

/-- What a measurement of a channel, if there is one, enters into the record of `q`. -/
def measured (c : Option ι) (q : ι) (m : μ) : List (Option μ) :=
  if c = some q then [some m] else []

/-- A measurement of the channel the chip is, or was, tuned to. -/
theorem data_elim_record (c : Option ι) (m : μ) (q : ι) :
    ((c.elim s fun p ↦ s.record C p m).survey q).data =
      (measured c q m).foldl (Tally.enter C.zero C.measure) (s.survey q).data := by
  cases c with
  | none => rfl
  | some p =>
    simp only [Option.elim_some, measured, Option.some_inj, data_record]
    split_ifs <;> rfl

theorem athUpdateSurveyStats_eq (m : μ) :
    s.athUpdateSurveyStats C m = s.curchan.elim s fun p ↦ s.record C p m := by
  rw [athUpdateSurveyStats]
  split <;> rename_i hc <;> rw [hc] <;> rfl

/-- The marks, the pointer and the tuning are left alone. -/
structure SameMarks (s t : Surveys ι δ) : Prop where
  inUse : ∀ q, (t.survey q).inUse = (s.survey q).inUse
  curSurvey : t.curSurvey = s.curSurvey
  curchan : t.curchan = s.curchan
  invalid : t.invalid = s.invalid

theorem sameMarks_elim_record (s : Surveys ι δ) (c : Option ι) (m : μ) :
    s.SameMarks (c.elim s fun p ↦ s.record C p m) := by
  cases c with
  | none => exact ⟨fun _ ↦ rfl, rfl, rfl, rfl⟩
  | some p => exact ⟨inUse_record p m, rfl, rfl, rfl⟩

omit [DecidableEq ι] in
theorem SameMarks.marked (h : s.SameMarks t) (hs : s.Marked) : t.Marked := by
  intro q
  rw [h.inUse, h.curSurvey]
  exact hs q

/-! ### Switching -/

theorem survey_setInUse (p : ι) (v : Bool) :
    (s.setInUse p v).survey = Function.update s.survey p ⟨v, (s.survey p).data⟩ := rfl

theorem survey_clear (p : ι) :
    (s.clear C p).survey = Function.update s.survey p ⟨false, C.zero⟩ := rfl

/-- The mark is taken off the record that has it. -/
theorem Marked.survey_unmark (hs : s.Marked) (q : ι) :
    (s.curSurvey.elim s fun p ↦ s.setInUse p false).survey q = ⟨false, (s.survey q).data⟩ := by
  have hother (hq : s.curSurvey ≠ some q) : s.survey q = ⟨false, (s.survey q).data⟩ := by
    rw [← Bool.eq_false_iff.mpr (mt (hs q).mp hq)]
  cases hc : s.curSurvey with
  | none => exact hother (by rw [hc]; exact Option.some_ne_none q ∘ Eq.symm)
  | some p =>
    rw [Option.elim_some, survey_setInUse, Function.update_apply]
    split_ifs with hq
    · rw [hq]
    · exact hother fun h ↦ hq (Option.some_inj.mp (h.symm.trans hc))

/-- The pointer after a switch. -/
def nextSurvey (s : Surveys ι δ) (p : ι) (off : Bool) : Option ι :=
  if off then s.curSurvey else some p

/-- **A switch of channels.** What it comes to is a plain rule: it clears the record of the channel,
unless this is the operating channel, and marks that of the operating channel. -/
theorem Marked.survey_switchSurvey (hs : s.Marked) (p : ι) (off : Bool) (q : ι) :
    (s.switchSurvey C p off).survey q =
      ⟨decide (s.nextSurvey p off = some q),
        if p = q ∧ s.curSurvey ≠ some q then C.zero else (s.survey q).data⟩ := by
  rw [switchSurvey]
  by_cases hnew : off = false ∧ s.curSurvey ≠ some p
  · obtain ⟨rfl, hne⟩ := hnew
    rw [if_pos ⟨rfl, hne⟩, survey_setInUse, survey_clear]
    by_cases hq : q = p
    · subst hq
      simp [nextSurvey, hne]
    · have hpq : p ≠ q := Ne.symm hq
      simp [nextSurvey, hq, hpq, hs.survey_unmark]
  · rw [if_neg hnew]
    -- the operating channel stays what it is
    have hnext : s.nextSurvey p off = s.curSurvey := by
      rw [nextSurvey]
      split_ifs with hoff
      · rfl
      · exact (by_contra fun hne ↦ hnew ⟨Bool.eq_false_iff.mpr hoff, Ne.symm hne⟩)
    have hkept : s.survey q = ⟨decide (s.curSurvey = some q), (s.survey q).data⟩ := by
      rw [← hs.inUse_eq q]
    rw [hnext]
    split_ifs with hout hclear hclear
    · obtain ⟨rfl, hne⟩ := hclear
      rw [survey_clear, Function.update_self, decide_eq_false hne]
    · rw [survey_clear, Function.update_of_ne, ← hkept]
      rintro rfl
      exact hclear ⟨rfl, mt (hs q).mpr (by rw [hout]; exact Bool.false_ne_true)⟩
    · obtain ⟨rfl, hne⟩ := hclear
      exact absurd (Bool.eq_false_iff.mpr (mt (hs p).mp hne)) hout
    · exact hkept

theorem curSurvey_switchSurvey (p : ι) (off : Bool) :
    (s.switchSurvey C p off).curSurvey = s.nextSurvey p off := by
  rw [switchSurvey, nextSurvey]
  split_ifs with hnew hoff hout hoff hoff
  · exact absurd (hnew.1.symm.trans hoff) Bool.false_ne_true
  · rfl
  · rfl
  · exact by_contra fun hne ↦ hnew ⟨Bool.eq_false_iff.mpr hoff, hne⟩
  · rfl
  · exact by_contra fun hne ↦ hnew ⟨Bool.eq_false_iff.mpr hoff, hne⟩

theorem Marked.switchSurvey (hs : s.Marked) (p : ι) (off : Bool) :
    (s.switchSurvey C p off).Marked := by
  intro q
  rw [hs.survey_switchSurvey, curSurvey_switchSurvey, decide_eq_true_iff]

/-! ### An event -/

/-- What an event enters into the record of `q`: measurements while the chip is tuned to it, and
`none` where it is switched to without being the operating channel. -/
def entries (C : SurveyConfig ι δ μ) (q : ι) (s : Surveys ι δ) :
    SurveyEvent ι μ → List (Option μ)
  | .setChannel pos _ stats reset nf =>
    if s.invalid then []
    else
      measured s.curchan q stats ++ (if pos = q ∧ s.curSurvey ≠ some q then [none] else []) ++
        if reset.r = 0 then measured s.curchan q nf else []
  | .getSurvey idx stats => if C.tx99 = false ∧ idx = 0 then measured s.curchan q stats else []
  | .updateStats stats => measured s.curchan q stats
  | .start _ _ | .stop _ => []

/-- The channel that an event makes the operating channel. -/
def operated (s : Surveys ι δ) : SurveyEvent ι μ → List ι
  | .setChannel pos offchannel _ _ _ => if s.invalid || offchannel then [] else [pos]
  | _ => []

section SetChannel

variable {p : ι} {off : Bool} {stats nf : μ} {reset : ResetResult}

/-- The records after a channel has been set. The channel that is measured in the end is the one
that the chip leaves. -/
theorem survey_athSetChannel (hv : s.invalid = false) :
    (s.athSetChannel C p off stats reset nf).1.survey =
      ((if reset.r = 0 then s.curchan else none).elim
        ((s.athUpdateSurveyStats C stats).switchSurvey C p off)
        fun c ↦ ((s.athUpdateSurveyStats C stats).switchSurvey C p off).record C c nf).survey := by
  rw [athSetChannel, if_neg (by rw [hv]; exact Bool.false_ne_true)]
  by_cases hr : reset.r = 0
  · rw [if_neg (not_not.mpr hr), if_pos hr]
    cases s.curchan <;> cases reset.tuned <;> rfl
  · rw [if_pos hr, if_neg hr]
    cases reset.tuned <;> rfl

theorem athSetChannel_of_invalid (hv : s.invalid = true) :
    s.athSetChannel C p off stats reset nf = (s, -5) := if_pos hv

theorem curSurvey_athSetChannel (hv : s.invalid = false) :
    (s.athSetChannel C p off stats reset nf).1.curSurvey = s.nextSurvey p off := by
  have hnext : ((s.athUpdateSurveyStats C stats).switchSurvey C p off).curSurvey =
      s.nextSurvey p off := by
    rw [curSurvey_switchSurvey, nextSurvey, nextSurvey, athUpdateSurveyStats_eq,
      (s.sameMarks_elim_record s.curchan stats).curSurvey]
  rw [← hnext, athSetChannel, if_neg (by rw [hv]; exact Bool.false_ne_true)]
  by_cases hr : reset.r = 0
  · rw [if_neg (not_not.mpr hr)]
    cases s.curchan <;> cases reset.tuned <;> rfl
  · rw [if_pos hr]
    cases reset.tuned <;> rfl

theorem Marked.athSetChannel (hs : s.Marked) (hv : s.invalid = false) :
    (s.athSetChannel C p off stats reset nf).1.Marked := by
  intro q
  have hstats : (s.athUpdateSurveyStats C stats).Marked := by
    rw [athUpdateSurveyStats_eq]
    exact (s.sameMarks_elim_record s.curchan stats).marked hs
  have hsame := ((s.athUpdateSurveyStats C stats).switchSurvey C p off).sameMarks_elim_record
    (C := C) (if reset.r = 0 then s.curchan else none) nf
  rw [survey_athSetChannel hv, curSurvey_athSetChannel hv, hsame.inUse,
    hstats.switchSurvey p off q, curSurvey_switchSurvey, nextSurvey, nextSurvey,
    athUpdateSurveyStats_eq, (s.sameMarks_elim_record s.curchan stats).curSurvey]

theorem Marked.data_athSetChannel (hs : s.Marked) (hv : s.invalid = false) (q : ι) :
    ((s.athSetChannel C p off stats reset nf).1.survey q).data =
      (s.entries C q (.setChannel p off stats reset nf)).foldl (Tally.enter C.zero C.measure)
        (s.survey q).data := by
  have hsame := s.sameMarks_elim_record (C := C) s.curchan stats
  rw [survey_athSetChannel hv, data_elim_record, athUpdateSurveyStats_eq,
    (hsame.marked hs).survey_switchSurvey, hsame.curSurvey, data_elim_record, entries, hv,
    if_neg Bool.false_ne_true, List.foldl_append, List.foldl_append]
  -- the entries are the measurement before, the clearing and the measurement after
  have hafter : measured (if reset.r = 0 then s.curchan else none) q nf =
      if reset.r = 0 then measured s.curchan q nf else [] := by
    split_ifs <;> rfl
  rw [hafter]
  congr 1
  by_cases hclear : p = q ∧ s.curSurvey ≠ some q
  · rw [if_pos hclear, if_pos hclear]
    rfl
  · rw [if_neg hclear, if_neg hclear]
    rfl

end SetChannel

/-- **What a survey shows.** The channels of the two bands are numbered one after the other. -/
theorem ath9kGetSurvey_eq (htx : C.tx99 = false) (idx : ℕ) (stats : μ) :
    s.ath9kGetSurvey C idx stats =
      (if idx = 0 then s.athUpdateSurveyStats C stats else s,
        match C.channels[idx]? with
        | none => .error (-2)
        | some pos =>
          .ok (pos, (if idx = 0 then s.athUpdateSurveyStats C stats else s).survey pos)) := by
  rw [ath9kGetSurvey, if_neg (by rw [htx]; exact Bool.false_ne_true), SurveyConfig.channels]
  generalize (if idx = 0 then s.athUpdateSurveyStats C stats else s) = u
  cases C.band2ghz with
  | none =>
    cases C.band5ghz with
    | none => rfl
    | some chans =>
      simp only [Option.isNone_none, if_true, Option.getD_none, Option.getD_some, List.nil_append]
      cases chans[idx]? <;> rfl
  | some chans =>
    simp only [Option.getD_some, List.getElem?_append]
    by_cases hidx : idx < chans.length
    · simp only [ge_iff_le, if_neg (Nat.not_le.mpr hidx), if_pos hidx, Option.isNone_some,
        Bool.false_eq_true, if_false]
      cases chans[idx]? <;> rfl
    · simp only [ge_iff_le, if_pos (Nat.not_lt.mp hidx), if_neg hidx, Option.isNone_none, if_true]
      cases C.band5ghz with
      | none => rfl
      | some chans' =>
        simp only [Option.getD_some]
        cases chans'[idx - chans.length]? <;> rfl

theorem ath9kGetSurvey_fst (idx : ℕ) (stats : μ) :
    (s.ath9kGetSurvey C idx stats).1 =
      (if C.tx99 = false ∧ idx = 0 then s.curchan else none).elim s fun p ↦ s.record C p stats := by
  cases htx : C.tx99 with
  | true => rw [ath9kGetSurvey, if_pos htx]; rfl
  | false =>
    rw [ath9kGetSurvey_eq htx, athUpdateSurveyStats_eq]
    by_cases hidx : idx = 0 <;> simp [hidx]

section Step

variable {e : SurveyEvent ι μ}

theorem step_curSurvey (h : (surveys C).step s e = some t) :
    t.curSurvey = (s.operated e).getLast?.elim s.curSurvey some := by
  cases e with
  | setChannel pos off stats reset nf =>
    obtain rfl := Option.some_inj.mp ((Option.ite_none_right_eq_some).mp h).2
    cases hv : s.invalid with
    | true =>
      rw [athSetChannel_of_invalid hv, operated, hv]
      rfl
    | false =>
      rw [curSurvey_athSetChannel hv, operated, hv, nextSurvey]
      cases off <;> rfl
  | getSurvey idx stats =>
    obtain rfl := Option.some_inj.mp h
    rw [ath9kGetSurvey_fst]
    exact (s.sameMarks_elim_record _ stats).curSurvey
  | updateStats stats =>
    obtain rfl := Option.some_inj.mp h
    rw [athUpdateSurveyStats_eq]
    exact (s.sameMarks_elim_record _ stats).curSurvey
  | start pos tuned =>
    obtain rfl := Option.some_inj.mp h
    rfl
  | stop pos =>
    simp only [surveys] at h
    split_ifs at h <;> exact Option.some_inj.mp h ▸ rfl

theorem Marked.step (hs : s.Marked) (h : (surveys C).step s e = some t) : t.Marked := by
  cases e with
  | setChannel pos off stats reset nf =>
    obtain rfl := Option.some_inj.mp ((Option.ite_none_right_eq_some).mp h).2
    cases hv : s.invalid with
    | true =>
      rw [athSetChannel_of_invalid hv]
      exact hs
    | false => exact hs.athSetChannel hv
  | getSurvey idx stats =>
    obtain rfl := Option.some_inj.mp h
    rw [ath9kGetSurvey_fst]
    exact (s.sameMarks_elim_record _ stats).marked hs
  | updateStats stats =>
    obtain rfl := Option.some_inj.mp h
    rw [athUpdateSurveyStats_eq]
    exact (s.sameMarks_elim_record _ stats).marked hs
  | start pos tuned =>
    obtain rfl := Option.some_inj.mp h
    exact hs
  | stop pos =>
    simp only [surveys] at h
    split_ifs at h <;> exact Option.some_inj.mp h ▸ hs

theorem Marked.step_data (hs : s.Marked) (h : (surveys C).step s e = some t) (q : ι) :
    (t.survey q).data =
      (s.entries C q e).foldl (Tally.enter C.zero C.measure) (s.survey q).data := by
  cases e with
  | setChannel pos off stats reset nf =>
    obtain rfl := Option.some_inj.mp ((Option.ite_none_right_eq_some).mp h).2
    cases hv : s.invalid with
    | true =>
      rw [athSetChannel_of_invalid hv, entries, hv]
      rfl
    | false => exact hs.data_athSetChannel hv q
  | getSurvey idx stats =>
    obtain rfl := Option.some_inj.mp h
    rw [ath9kGetSurvey_fst, data_elim_record, entries]
    split_ifs <;> rfl
  | updateStats stats =>
    obtain rfl := Option.some_inj.mp h
    rw [athUpdateSurveyStats_eq, data_elim_record, entries]
  | start pos tuned =>
    obtain rfl := Option.some_inj.mp h
    rfl
  | stop pos =>
    simp only [surveys] at h
    split_ifs at h <;> exact Option.some_inj.mp h ▸ rfl

end Step

/-- What is shown to the caller. -/
def shown (C : SurveyConfig ι δ μ) (s : Surveys ι δ) :
    SurveyEvent ι μ → List (ι × SurveyInfo δ)
  | .getSurvey idx stats =>
    match (s.ath9kGetSurvey C idx stats).2 with
    | .ok r => [r]
    | .error _ => []
  | _ => []

end Surveys

/-- All channels are asked for in turn. -/
def surveyDump (stats : ℕ → μ) (n : ℕ) : List (SurveyEvent ι μ) :=
  (List.range n).map fun idx ↦ .getSurvey idx (stats idx)

/-- Two channels of one band and one of the other, and a sum of what has been measured. -/
def twoBands : SurveyConfig ℕ ℕ ℕ where
  band2ghz := some [0, 1]
  band5ghz := some [4]
  tx99 := false
  zero := 0
  measure m d := d + m
  nodup := by decide

/-- The channel has been changed. -/
def resetDone : ResetResult := ⟨0, true, fun _ ↦ rfl⟩

/-- Channel 1 is operated on, and channel 4 is scanned. The numbers say when it is measured. -/
def scanOnce : List (SurveyEvent ℕ ℕ) :=
  [.start 0 true, .setChannel 1 false 1000 resetDone 0, .updateStats 1,
    .setChannel 4 true 10 resetDone 0, .updateStats 500, .setChannel 1 false 500 resetDone 0,
    .updateStats 100]

/-! ## Runs -/

section Results

variable {C : SurveyConfig ι δ μ} {s t : Surveys ι δ} {es : List (SurveyEvent ι μ)} {c : Option ι}

omit [DecidableEq ι] in
theorem Surveys.marked_fresh : (Surveys.fresh C c).Marked := fun _ ↦
  iff_of_false Bool.false_ne_true (Option.some_ne_none _).symm

theorem Surveys.marked_of_run (h : (surveys C).run (.fresh C c) es = some t) : t.Marked :=
  Machine.invariant (P := Surveys.Marked) (fun _ _ _ hs hst ↦ hs.step hst) Surveys.marked_fresh h

theorem curSurvey_of_run (h : (surveys C).run s es = some t) :
    t.curSurvey = ((surveys C).trace Surveys.operated s es).getLast?.elim s.curSurvey some :=
  Machine.observe_of_run Surveys.curSurvey some
    (fun _ _ _ _ _ huv ↦ Surveys.step_curSurvey huv) h

/-- **The channel in use.** After any run the record of a channel is marked as in use if and only if
this is the last channel that has been set as the operating channel. -/
theorem inUse_iff_of_run (h : (surveys C).run (.fresh C c) es = some t) (q : ι) :
    (t.survey q).inUse = true ↔
      ((surveys C).trace Surveys.operated (.fresh C c) es).getLast? = some q := by
  rw [Surveys.marked_of_run h q, curSurvey_of_run h]
  cases ((surveys C).trace Surveys.operated (.fresh C c) es).getLast? <;> rfl

/-- Channel 1 still is the operating channel when channel 4 has been scanned. -/
theorem inUse_iff_of_run_scan :
    ∃ t, (surveys twoBands).run (.fresh twoBands none) scanOnce = some t ∧
      (t.survey 1).inUse = true ∧ (t.survey 4).inUse ≠ true := by
  obtain ⟨t, ht⟩ : ∃ t, (surveys twoBands).run (.fresh twoBands none) scanOnce = some t :=
    ⟨_, rfl⟩
  exact ⟨t, ht, (inUse_iff_of_run ht 1).mpr (by decide), mt (inUse_iff_of_run ht 4).mp (by decide)⟩

/-- **What a record holds.** After any run the record of a channel holds what has been measured
while the chip was tuned to it, since the driver last switched to it from another operating channel
or scanned it. -/
theorem data_of_run (h : (surveys C).run (.fresh C c) es = some t) (q : ι) :
    (t.survey q).data =
      (Tally.lastStretch ((surveys C).trace (Surveys.entries C q) (.fresh C c) es)).foldl
        (fun d m ↦ C.measure m d) C.zero :=
  Tally.tally_of_run (fun s : Surveys ι δ ↦ (s.survey q).data) rfl
    (fun _ _ _ _ hu huv ↦ (Surveys.marked_of_run hu).step_data huv q) h

/-- What has been measured on channel 1 before the scan is kept. -/
theorem data_of_run_scan :
    ∃ t, (surveys twoBands).run (.fresh twoBands none) scanOnce = some t ∧
      (t.survey 1).data = 111 ∧ (t.survey 4).data = 1000 := by
  obtain ⟨t, ht⟩ : ∃ t, (surveys twoBands).run (.fresh twoBands none) scanOnce = some t :=
    ⟨_, rfl⟩
  exact ⟨t, ht, (data_of_run ht 1).trans (by decide), (data_of_run ht 4).trans (by decide)⟩

/-- The first `n` channels of a dump. The first question brings the records up to date. -/
theorem trace_surveyDump (htx : C.tx99 = false) (s : Surveys ι δ) (stats : ℕ → μ) {n : ℕ}
    (hn : n ≤ C.channels.length) :
    (surveys C).run s (surveyDump stats n) =
        some (if n = 0 then s else s.athUpdateSurveyStats C (stats 0)) ∧
      (surveys C).trace (Surveys.shown C) s (surveyDump stats n) =
        (C.channels.take n).map fun p ↦
          (p, (s.athUpdateSurveyStats C (stats 0)).survey p) := by
  induction n with
  | zero => exact ⟨rfl, rfl⟩
  | succ n ih =>
    obtain ⟨hrun, htrace⟩ := ih (Nat.le_of_succ_le hn)
    have hdump : (surveyDump stats (n + 1) : List (SurveyEvent ι μ)) =
        surveyDump stats n ++ [.getSurvey n (stats n)] := by
      rw [surveyDump, List.range_succ, List.map_append]
      rfl
    generalize hw : (if n = 0 then s else s.athUpdateSurveyStats C (stats 0)) = w at hrun
    have hnow : (if n = 0 then w.athUpdateSurveyStats C (stats n) else w) =
        s.athUpdateSurveyStats C (stats 0) := by
      by_cases h0 : n = 0
      · rw [if_pos h0, ← hw, if_pos h0, h0]
      · rw [if_neg h0, ← hw, if_neg h0]
    have hget := w.ath9kGetSurvey_eq htx n (stats n)
    rw [hnow, List.getElem?_eq_getElem hn] at hget
    refine ⟨?_, ?_⟩
    · rw [hdump, Machine.run_concat_eq_some]
      refine ⟨w, hrun, ?_⟩
      rw [if_neg (Nat.succ_ne_zero n)]
      exact congrArg (some ·.1) hget
    · rw [hdump, Machine.trace_concat _ _ hrun, htrace, Surveys.shown, hget,
        List.take_succ_eq_append_getElem hn, List.map_append]
      rfl

/-- Only channels that the chip has become the operating channel. -/
theorem mem_channels_of_run {p : ι} (h : (surveys C).run s es = some t)
    (hp : p ∈ (surveys C).trace Surveys.operated s es) : p ∈ C.channels := by
  obtain ⟨pre, e, u, hpre, hu, hpe⟩ := Machine.mem_trace hp
  obtain ⟨v, hv⟩ := Machine.exists_run_of_prefix h hpre
  obtain ⟨u', hu', huv⟩ := Machine.run_concat_eq_some.mp hv
  obtain rfl := Option.some_inj.mp (hu.symm.trans hu')
  cases e with
  | setChannel pos off stats reset nf =>
    have hmem := (Option.ite_none_right_eq_some.mp huv).1
    rw [Surveys.operated] at hpe
    split_ifs at hpe
    · exact absurd hpe List.not_mem_nil
    · rwa [List.mem_singleton.mp hpe]
  | getSurvey | updateStats | start | stop => exact absurd hpe List.not_mem_nil

/-- **A survey.** After any run that has set an operating channel, and without TX99, all channels of
both bands are shown, each once, as their records are once the current channel has been measured;
exactly one of them is marked as in use, the operating channel, and no question after the last of
them is answered. -/
theorem shown_of_run (htx : C.tx99 = false) (h : (surveys C).run (.fresh C c) es = some t) {p : ι}
    (hp : ((surveys C).trace Surveys.operated (.fresh C c) es).getLast? = some p)
    (stats : ℕ → μ) :
    (surveys C).trace (Surveys.shown C) t (surveyDump stats C.channels.length) =
        C.channels.map (fun q ↦ (q, (t.athUpdateSurveyStats C (stats 0)).survey q)) ∧
      (((surveys C).trace (Surveys.shown C) t (surveyDump stats C.channels.length)).filter
        (fun r ↦ r.2.inUse)).map Prod.fst = [p] ∧
      ∀ idx m, C.channels.length ≤ idx → (t.ath9kGetSurvey C idx m).2 = .error (-2) := by
  have hshown := (trace_surveyDump htx t stats (Nat.le_refl _)).2
  rw [List.take_length] at hshown
  refine ⟨hshown, ?_, fun idx m hidx ↦ ?_⟩
  · have hcur : t.curSurvey = some p := by
      rw [curSurvey_of_run h, hp]
      rfl
    have hmark (q : ι) :
        ((t.athUpdateSurveyStats C (stats 0)).survey q).inUse = decide (q = p) := by
      rw [Surveys.athUpdateSurveyStats_eq, (t.sameMarks_elim_record _ _).inUse,
        (Surveys.marked_of_run h).inUse_eq, hcur]
      exact decide_eq_decide.mpr (Option.some_inj.trans eq_comm)
    rw [hshown, List.filter_map, List.map_map, Function.comp_def, Function.comp_def]
    simp only [hmark, List.map_id']
    have hone : C.channels.count p = 1 :=
      List.count_eq_one_of_mem C.nodup (mem_channels_of_run h (List.mem_of_getLast? hp))
    rw [List.filter_eq, hone]
    rfl
  · rw [Surveys.ath9kGetSurvey_eq htx, List.getElem?_eq_none hidx]

/-- After the scan three channels are shown, and the second of them is marked. -/
theorem shown_of_run_scan :
    ∃ t, (surveys twoBands).run (.fresh twoBands none) scanOnce = some t ∧
      (((surveys twoBands).trace (Surveys.shown twoBands) t
        (surveyDump (fun _ ↦ 0) twoBands.channels.length)).filter
          (fun r ↦ r.2.inUse)).map Prod.fst = [1] := by
  obtain ⟨t, ht⟩ : ∃ t, (surveys twoBands).run (.fresh twoBands none) scanOnce = some t :=
    ⟨_, rfl⟩
  exact ⟨t, ht, (shown_of_run rfl ht (p := 1) (by decide) fun _ ↦ 0).2.1⟩

end Results

end UcsmaRateControl
