import Nsumo.Drivers.Vl53l0xObservedLaws

namespace Nsumo.Drivers

open Common Lib

namespace Vl53l0x

def Fails (F : Prop) (q : Vl53l0xIdx → List (BitVec 16)) (p : Plan) : Prop :=
  ¬F → ∀ s, Follows F p s → Clean (s.dev.fail false) →
    Between F q { s with dev := s.dev.fail false }

section

variable {F : Prop} {q : Vl53l0xIdx → List (BitVec 16)} {p p' : Plan} {s : Vl53l0x Observed}
  {reg data : Byte} {idx : Vl53l0xIdx}

theorem fails_stored (h : p.stored = true) : Fails F q p := by
  intro _ s hs hclean
  have htorn := hclean.1
  simp [Observed.fail, hs.stored h] at htorn

theorem Fails.ends (hfails : Fails F q p) (h : Follows F p s) (hF : ¬F) (touched : Bool) :
    EndsAt F q (.result .errorI2c) { s with dev := s.dev.fail touched } := by
  intro _
  refine ⟨hF, fun r hr => ?_⟩
  cases hr
  refine ⟨rfl, fun hclean => ?_⟩
  have htouched : touched = false := by
    have htorn := hclean.1
    simp only [Observed.fail, Bool.or_eq_false_iff] at htorn
    exact htorn.2
  subst htouched
  exact hfails hF s h hclean

theorem Follows.address_triple (hpage : p.page = 0) :
    Triple (Follows F p) (i2cSetSlaveAddress Observed.bus (vl53l0xCfgs idx))
      (fun _ => Follows F { p with slave := idx }) (EndsAt F q) :=
  .update fun _ h => h.address hpage idx

theorem Fails.write (hfails : Fails F q p)
    (hwrote : ∀ s, Follows F p s → Follows F p' { s with dev := s.dev.wrote reg data p.slave }) :
    Triple (Follows F p) (i2cWriteAddr8Data8 Observed.bus reg data)
      (After (EndsAt F q) (Follows F p')) (EndsAt F q) := by
  intro s hs
  have hs := hs.passed
  change After (EndsAt F q) (Follows F p')
    (Observed.write reg [data] (Vl53l0x.passed s).dev).1
    { Vl53l0x.passed s with dev := (Observed.write reg [data] (Vl53l0x.passed s).dev).2 }
  obtain hok | ⟨herror, e, hfail⟩ := Observed.write_cases hs.slaveAddress reg data
  · rw [hok]
    exact hwrote _ hs
  · rw [hfail]
    exact hfails.ends hs (hs.not_faultless herror) false

theorem Fails.writePlain (hfails : Fails F q p) (hreg : reg ≠ 0xFF)
    (hplain : p.page ≠ 0 ∨ reg ≠ regSysrangeStart ∧ reg ≠ regSystemInterruptClear) :
    Triple (Follows F p) (i2cWriteAddr8Data8 Observed.bus reg data)
      (After (EndsAt F q) (Follows F p)) (EndsAt F q) :=
  hfails.write fun _ h => h.wrote_plain hreg hplain

theorem Fails.selectPage (hfails : Fails F q p) (page : Byte) :
    Triple (Follows F p) (i2cWriteAddr8Data8 Observed.bus 0xFF page)
      (After (EndsAt F q) (Follows F { p with page := page })) (EndsAt F q) :=
  hfails.write fun _ h => h.wrote_page (Sensor.write_page page _) (Sensor.starts_page page _)

theorem Fails.read (hfails : Fails F q p) (hreg : reg ≠ regResultRangeStatus + 10) :
    Triple (Follows F p) (i2cReadAddr8Data8 Observed.bus reg)
      (fun r => After (EndsAt F q) (Follows F p) r.1) (EndsAt F q) := by
  intro s hs
  have hs := hs.passed
  obtain hrun | ⟨herror, e, data, hrun⟩ := Observed.read8_cases hs.slaveAddress hreg
  · rw [hrun]
    exact hs.got hreg
  · rw [hrun]
    exact hfails.ends hs (hs.not_faultless herror) false

end

section

variable {F : Prop} {q q' : Vl53l0xIdx → List (BitVec 16)} {stored : Bool}
  {waiting : List Vl53l0xIdx} {idx slave : Vl53l0xIdx} {page : Byte} {fuel : Nat}

theorem starting_waiting (h : idx ∈ waiting) :
    (starting q stored waiting slave page).expect idx = .waits (q idx) :=
  if_neg fun hin => hin.2 h

theorem starting_started (hfront : idx ∈ fronts) (h : idx ∉ waiting) :
    (starting q stored waiting slave page).expect idx = .runs (q idx) := if_pos ⟨hfront, h⟩

theorem starting_start (hfront : idx ∈ fronts) (hnot : idx ∉ waiting) :
    starting q stored waiting idx 0 = { starting q stored (idx :: waiting) idx 0 with
      expect := Function.update (starting q stored (idx :: waiting) idx 0).expect idx
        (.runs (q idx))
      signal := if .front ∈ waiting then .armed else .running } := by
  rw [starting, Plan.mk.injEq]
  refine ⟨funext fun i => ?_, rfl, rfl, rfl, rfl, rfl⟩
  by_cases hi : i = idx
  · subst hi
    rw [Function.update_self, if_pos ⟨hfront, hnot⟩]
  · rw [Function.update_of_ne hi]
    simp [starting, hi]

theorem Follows.wrote_start {s : Vl53l0x Observed} (hfront : idx ∈ fronts) (hnot : idx ∉ waiting)
    (h : Follows F (starting q stored (idx :: waiting) idx 0) s) :
    Follows F (starting q stored waiting idx 0)
      { s with dev := s.dev.wrote regSysrangeStart 0x01 idx } := by
  have hwrite := Sensor.write_start h.page_slave
  have hstarts := Sensor.starts_start h.page_slave
  have hidle := h.expect idx
  rw [starting_waiting List.mem_cons_self] at hidle
  rw [starting_start hfront hnot]
  refine h.wrote (e := .runs (q idx)) ?_ ?_ ?_
  · exact (congrArg Sensor.page hwrite).trans h.page_slave
  · refine .inl ⟨congrArg Sensor.measuring hwrite, ?_, ?_⟩
    · exact (congrArg Sensor.interrupt hwrite).trans hidle.1.2
    · exact (Observed.wrote_log_self.trans (if_pos hstarts)).trans (congrArg (· ++ _) hidle.2)
  · have hsignal := h.signal
    rw [Observed.wrote_sensors]
    by_cases hi : .front = idx
    · subst hi
      simp only [starting, List.mem_cons_self, if_true, if_neg hnot, Function.update_self]
        at hsignal ⊢
      refine .inl ⟨hsignal.1, hsignal.2.1.trans ?_⟩
      exact ((congrArg Sensor.interrupt hwrite).trans hidle.1.2).symm
    · simp only [starting, List.mem_cons, hi, false_or, Function.update_of_ne hi] at hsignal ⊢
      exact hsignal

theorem startSysrange_follows (hfront : idx ∈ fronts) (hnot : idx ∉ waiting)
    (hwaiting : ∀ page, Fails F q' (starting q stored (idx :: waiting) idx page))
    (hstarted : Fails F q' (starting q stored waiting idx 0)) :
    Triple (Follows F (starting q stored (idx :: waiting) slave 0))
      (vl53l0xStartSysrange Observed.bus fuel idx)
      (fun _ => Follows F (starting q stored waiting idx 0)) (EndsAt F q') := by
  apply startSysrange_rule endsAt_fuel (Follows.address_triple rfl)
  · exact fun data => (hwaiting 0).writePlain (by decide) (.inr (by decide))
  · exact (hwaiting 0).selectPage 0x01
  · exact fun reg data hreg => (hwaiting 1).writePlain hreg (.inl (by decide : (1 : Byte) ≠ 0))
  · exact (hwaiting 1).selectPage 0x00
  · exact fun data => (hwaiting 0).writePlain (by decide) (.inr (by decide))
  · exact (hwaiting 0).write fun _ h => h.wrote_start hfront hnot
  · exact hstarted.read (by decide)

theorem fails_ranging : Fails F q (starting q false [] slave 0) :=
  fun _ _ h _ => .ranging (h.fail false)

theorem fails_first (h : .frontRight ∈ waiting) :
    Fails F (fun _ => []) (starting (fun _ => []) stored waiting slave page) := by
  intro hF s hs hclean
  have hright := hs.expect .frontRight
  rw [starting_waiting h] at hright
  refine .stuck hF rfl ⟨hs.initialized, ?_, hs.latest, hright.1, ?_⟩
  · have hsignal := hs.signal
    rw [starting] at hsignal
    intro hstatus
    change s.statusMultiple = .notStarted at hstatus
    by_cases hfront : .front ∈ waiting
    · simp only [if_pos hfront, Signal.Holds, hstatus] at hsignal
      cases hsignal.1
    · simp [hfront, Signal.Holds, hstatus] at hsignal
  · exact hclean.2 _ (List.mem_append_right _ (List.mem_singleton.mpr rfl))

theorem setStatus_follows {signal : Signal} (hsignal : signal = .fresh ∨ signal = .served) :
    Triple (Follows F (resting q stored slave signal))
      (setStatusMultiple Observed.bus .measuring)
      (fun _ => Follows F (starting q stored fronts slave 0)) (EndsAt F q') := by
  intro s hs
  have hs := hs.passed
  have hwaits : (starting q stored fronts slave 0).expect = fun idx => .waits (q idx) :=
    funext fun idx => if_neg fun hin => hin.2 hin.1
  have hedge : (passed s).dev.sensors.edge = false := by
    obtain rfl | rfl := hsignal
    · exact hs.signal.2.1
    · exact hs.signal.2.1
  refine ⟨hs.initialized, hs.slaveAddress, hs.page, ?_, ?_, hs.latest, hs.stored, hs.faultless⟩
  · rw [hwaits]
    exact hs.expect
  · exact ⟨rfl, hedge, (hs.expect .front).1⟩

theorem startMeasuring_follows {signal : Signal} (hsignal : signal = .fresh ∨ signal = .served)
    (hfails : ∀ waiting, .frontRight ∈ waiting → ∀ idx page,
      Fails F q' (starting q stored waiting idx page))
    (hstarted : Fails F q' (starting q stored [] .frontRight 0)) :
    Triple (Follows F (resting q stored slave signal))
      (vl53l0xStartMeasuringMultiple Observed.bus fuel)
      (fun _ => Follows F (starting q stored [] .frontRight 0)) (EndsAt F q') := by
  have hset := @setStatus_follows F q q' stored slave signal hsignal
  refine startMeasuring_rule (fun s h => h.initialized) ?_ hset
    (startSysrange_follows (by decide) (by decide) (hfails _ (by decide) _) ?_)
    (startSysrange_follows (by decide) (by decide) (hfails _ (by decide) _) ?_)
    (startSysrange_follows (by decide) (by decide) (hfails _ (by decide) _) hstarted)
  · intro s hs
    refine ⟨?_, hs.passed⟩
    have hstatus := hs.passed.signal
    intro hmeasuring
    change (passed s).statusMultiple = .measuring at hmeasuring
    obtain rfl | rfl := hsignal
    · cases hmeasuring.symm.trans hstatus.1
    · cases hmeasuring.symm.trans hstatus.1
  · exact hfails _ (by decide) _ _
  · exact hfails _ (by decide) _ _

theorem passed_started {s : Vl53l0x Observed} (h : s.statusMultiple ≠ .notStarted) :
    (passed s).statusMultiple ≠ .notStarted := by
  rw [passed_eq]
  cases hfired : s.dev.elapse.1 with
  | false => exact h
  | true => exact StatusMultiple.noConfusion

theorem Stuck.passed {s : Vl53l0x Observed} (h : Stuck s) : Stuck (passed s) := by
  refine ⟨?_, passed_started h.started, ?_, ?_⟩
  · rw [passed_eq]
    exact h.initialized
  · rw [passed_eq]
    exact h.latest
  · rw [passed_eq]
    have hstill := Sensors.happen_still (s.dev.sensors.events 0) h.rest.1.1
    exact (congrArg Sensor.AtRest hstill).mpr h.rest

theorem Between.passed {s : Vl53l0x Observed} (h : Between F q s) : Between F q (passed s) := by
  cases h with
  | fresh hq h => exact .fresh hq h.passed
  | ranging h => exact .ranging h.passed
  | stuck hF hq h => exact .stuck hF hq h.passed

theorem Between.initialized {s : Vl53l0x Observed} (h : Between F q s) : s.initialized = true := by
  cases h with
  | fresh hq h => exact h.initialized
  | ranging h => exact h.initialized
  | stuck hF hq h => exact h.initialized

theorem Follows.started {s : Vl53l0x Observed} (h : Follows F (ranging q slave) s) :
    s.statusMultiple ≠ .notStarted := by
  obtain ⟨hstatus, -⟩ | ⟨hstatus, -⟩ := h.signal
  · rw [hstatus]
    decide
  · rw [hstatus]
    decide

theorem firstStart_follows :
    Triple (Follows F (resting (fun _ => []) false slave .fresh))
      (do
        vl53l0xStartMeasuringMultiple Observed.bus fuel
        waitDone Observed.bus fuel)
      (fun _ => Follows F (ranging (fun _ => []) .frontRight)) (EndsAt F fun _ => []) := by
  refine (startMeasuring_follows (.inl rfl) ?_ fails_ranging).bind fun _ => ?_
  · exact fun waiting hright idx page => fails_first hright
  · exact waitDone_rule endsAt_fuel fun _ h => h.passed

theorem startIfNotStarted_follows :
    Triple (Between F q) (startIfNotStarted Observed.bus fuel)
      (fun _ s => Between F q s ∧ s.statusMultiple ≠ .notStarted) (EndsAt F q) := by
  refine Triple.bind (Q := fun r s => r = s.statusMultiple ∧ Between F q s)
    (fun _ h => ⟨rfl, h.passed⟩) fun status => .cond (fun hstatus => ?_) fun hstatus => ?_
  · rintro s ⟨hs, h⟩
    rw [hs] at hstatus
    cases h with
    | fresh hq h =>
      subst hq
      exact firstStart_follows.conseq (fun _ h => h) (fun _ _ h => ⟨.ranging h, h.started⟩)
        (fun _ _ h => h) s h
    | ranging h => exact absurd hstatus h.started
    | stuck hF hq h => exact absurd hstatus h.started
  · exact .ret fun s h => ⟨h.2, h.1 ▸ hstatus⟩

end

end Vl53l0x

end Nsumo.Drivers
