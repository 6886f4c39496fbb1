import Nsumo.Drivers.Vl53l0xLaws
import Nsumo.Lib.Run

namespace Nsumo.Drivers

open Common Lib

namespace Vl53l0x

section

variable {least : StatusMultiple} {v : View} {done : List Vl53l0xIdx} {fuel : Nat}

theorem getStatus_triple :
    Triple (Since least v) (getStatusMultiple Sensors.bus)
      (fun r s => Since least v s ∧ s.statusMultiple = r) Ended :=
  fun _ h => ⟨h.elapsed, rfl⟩

theorem setStatus_triple :
    Triple (Since least v) (setStatusMultiple Sensors.bus .measuring)
      (fun _ => Since .measuring v) Ended := by
  intro s h
  refine ⟨{ h.1.elapsed with fresh := fun hstatus => ?_ }, .inl rfl⟩
  cases hstatus

theorem assert_triple {P : Vl53l0x Sensors → Prop} (expression : Bool) :
    Triple P (vl53l0xAssert expression) (fun _ s => expression = true ∧ P s) Ended := by
  cases expression with
  | true => exact .ret fun _ h => ⟨rfl, h⟩
  | false =>
    refine .raise fun _ _ r hr => ?_
    cases hr

theorem interruptStatus_done {values : Byte → Byte} {s : Sensor} (hpage : s.page = 0)
    (hdone : s.read values regResultInterruptStatus &&& 0x07 ≠ 0) : s.interrupt = true := by
  cases hinterrupt : s.interrupt with
  | true => rfl
  | false =>
    rw [Sensor.read, if_pos ⟨hpage, rfl⟩, hinterrupt] at hdone
    simp [BitVec.and_assoc] at hdone

theorem status_triple (hpage : v.page = 0) (hidle : ¬v.SomeIdle) :
    Triple (Since least v) (i2cReadAddr8Data8 Sensors.bus regResultInterruptStatus)
      (fun r s => Since least v s ∧
        (r.1 = none → r.2 &&& 0x07 ≠ 0 → (s.dev.sensor v.slave).interrupt = true)) Ended := by
  intro s hs
  have ht : Since least v (Vl53l0x.elapsed s) := hs.elapsed
  have hpageSlave := ht.1.page_slave.trans hpage
  obtain hrun | ⟨-, e, data, hrun⟩ := read8_cases ht.1.slaveAddress regResultInterruptStatus
  · rw [hrun]
    exact ⟨⟨ht.1.outcomes, ht.2⟩, fun _ hdone => interruptStatus_done hpageSlave hdone⟩
  · rw [hrun]
    refine ⟨⟨ht.1.fail hidle, ht.2⟩, fun hnone => ?_⟩
    cases hnone

def View.finish (v : View) : View := { v with finished := Function.update v.finished v.slave true }

theorem Shows.finish {s : Vl53l0x Sensors} (h : Shows v s)
    (hinterrupt : (s.dev.sensor v.slave).interrupt = true) : Shows v.finish s := by
  refine { h with finished := fun idx hfinished => ?_ }
  by_cases hidx : idx = v.slave
  · rwa [hidx]
  · exact h.finished idx (by simpa [View.finish, hidx] using hfinished)

theorem isSysrangeDone_triple (idx : Vl53l0xIdx) :
    Triple (Resting least done) (vl53l0xIsSysrangeDone Sensors.bus idx)
      (fun b => Resting least (if b then idx :: done else done)) Ended := by
  apply Triple.some
  intro v
  apply Triple.guarded
  rintro ⟨hpage, hidle, hfinished⟩
  refine .cond (fun hother => .ret fun s h => ⟨v, ⟨hpage, hidle, ?_⟩, h⟩) fun hfront => ?_
  · intro i hi hif
    obtain rfl | hi := List.mem_cons.mp hi
    · simp [fronts, hother] at hif
    · exact hfinished i hi hif
  · refine (address_triple hpage).bind fun _ => ?_
    refine (status_triple (v := v.address idx) hpage hidle).bind fun r => .ret ?_
    rintro s ⟨hsince, hinterrupt⟩
    split
    · rename_i hdone
      obtain ⟨hnone, hbits⟩ := by simpa using hdone
      have hfinish := hsince.1.finish (hinterrupt hnone hbits)
      refine ⟨(v.address idx).finish, ⟨hpage, hidle, fun i hi hif => ?_⟩, hfinish, hsince.2⟩
      obtain rfl | hi := List.mem_cons.mp hi
      · exact Function.update_self ..
      · by_cases hidx : i = idx
        · rw [hidx]
          exact Function.update_self ..
        · exact (Function.update_of_ne hidx ..).trans (hfinished i hi hif)
    · exact ⟨v.address idx, ⟨hpage, hidle, hfinished⟩, hsince⟩

theorem Resting.mono {done' : List Vl53l0xIdx} {s : Vl53l0x Sensors} (h : Resting least done s)
    (hsub : done' ⊆ done) : Resting least done' s := by
  obtain ⟨v, ⟨hpage, hidle, hfinished⟩, hv⟩ := h
  exact ⟨v, ⟨hpage, hidle, fun idx hidx => hfinished idx (hsub hidx)⟩, hv⟩

theorem areSysrangesDone_triple (idxs : List Vl53l0xIdx) :
    Triple (Resting least done) (areSysrangesDone Sensors.bus idxs)
      (fun b => Resting least (if b then idxs ++ done else [])) Ended :=
  areSysrangesDone_rule (fun _ h hsub => h.mono hsub) fun idx _ => isSysrangeDone_triple idx

theorem waitDone_triple :
    Triple (Resting least done) (waitDone Sensors.bus fuel) (fun _ => Resting least done)
      Ended := by
  refine waitDone_rule ended_fuel ?_
  rintro s ⟨v, hv, hsince⟩
  exact ⟨v, hv, hsince.elapsed⟩

theorem startMeasuring_triple (hleast : least ≠ .measuring) (hidle : v.AllIdle) :
    Triple (Since least v) (vl53l0xStartMeasuringMultiple Sensors.bus fuel)
      (fun _ => Resting .measuring []) Ended := by
  obtain ⟨hpage, hidle⟩ := hidle
  have hmeasuring : StatusMultiple.measuring ≠ .notStarted := by decide
  have hfront := hidle .front (by decide)
  have hleft := hidle .frontLeft (by decide)
  have hright := hidle .frontRight (by decide)
  have hstatus : Triple (Since least v) (getStatusMultiple Sensors.bus)
      (fun r s => r ≠ .measuring ∧ Since least v s) Ended := by
    refine getStatus_triple.conseq (fun _ h => h) (fun r s h => ⟨?_, h.1⟩) fun _ _ h => h
    rintro rfl
    obtain hsince | hsince := h.1.2
    · exact hleast (hsince.symm.trans h.2)
    · cases h.2.symm.trans hsince
  have hlast := @startSysrange_triple .measuring fuel
    ((v.address .front).start.address .frontLeft).start .frontRight hmeasuring hpage (by decide)
    hright.1 hright.2
  refine startMeasuring_rule (fun s h => h.1.initialized) hstatus setStatus_triple
    (startSysrange_triple v .front hmeasuring hpage (by decide) hfront.1 hfront.2)
    (startSysrange_triple (v.address .front).start .frontLeft hmeasuring hpage (by decide) hleft.1
      hleft.2) (hlast.conseq (fun _ h => h) (fun _ s h => ?_) fun _ _ h => h)
  refine ⟨_, ⟨?_, ?_, ?_⟩, h⟩
  · exact hpage
  · rintro ⟨idx, hmem, hsome⟩
    simp only [fronts, List.mem_cons, List.not_mem_nil, or_false] at hmem
    obtain rfl | rfl | rfl := hmem <;> cases hsome
  · simp

theorem readSensors_triple :
    Triple (Resting .done [.left, .right, .frontLeft, .frontRight])
      (readSensors Sensors.bus fuel) (fun _ => Resting .measuring []) Ended := by
  have hdone : StatusMultiple.done ≠ .notStarted := by decide
  refine (isSysrangeDone_triple .front).bind fun b => ?_
  refine (assert_triple b).bind fun _ => .guarded fun hb => ?_
  rw [if_pos hb]
  apply Triple.some
  intro v
  apply Triple.guarded
  rintro ⟨hpage, hidle, hfinished⟩
  have hfront := hfinished .front (by decide) (by decide)
  have hleft := hfinished .frontLeft (by decide) (by decide)
  have hright := hfinished .frontRight (by decide) (by decide)
  refine (readRange_triple v .front hdone hpage hfront).bind fun _ => ?_
  refine (readRange_triple (v.address .front).clear .frontLeft hdone hpage hleft).bind
    fun _ => ?_
  refine (readRange_triple ((v.address .front).clear.address .frontLeft).clear .frontRight hdone
    hpage hright).bind fun _ => ?_
  refine startMeasuring_triple (by decide) ⟨hpage, fun idx hmem => ?_⟩
  simp only [fronts, List.mem_cons, List.not_mem_nil, or_false] at hmem
  obtain rfl | rfl | rfl := hmem <;> exact ⟨rfl, rfl⟩

theorem getStatus_fresh (hidle : v.AllIdle) :
    Triple (fun s => Shows v s ∧ s.statusMultiple = .notStarted) (getStatusMultiple Sensors.bus)
      (fun r s => r = .notStarted ∧ Since .notStarted v s) Ended := by
  rintro s ⟨h, hstatus⟩
  have hfront : (s.dev.sensor .front).Idle := (h.idle .front).mpr (hidle.2 .front (by decide)).1
  have hkept : (Vl53l0x.elapsed s).statusMultiple = .notStarted :=
    (elapsed_quiet (h.fresh hstatus).1 hfront.1).1.trans hstatus
  exact ⟨hkept, h.elapsed, .inl hkept⟩

theorem getStatus_resting :
    Triple (Resting least done) (getStatusMultiple Sensors.bus)
      (fun r s => Resting least done s ∧ (r = least ∨ r = .done)) Ended := by
  rintro s ⟨v, hv, hsince⟩
  exact ⟨⟨v, hv, hsince.elapsed⟩, hsince.elapsed.2⟩

theorem startIfNotStarted_triple :
    Triple Good (startIfNotStarted Sensors.bus fuel) (fun _ => Resting .measuring []) Ended := by
  apply Triple.either
  · apply Triple.some
    intro v
    apply Triple.guarded
    intro hidle
    refine (getStatus_fresh hidle).bind fun status => .cond (fun _ => ?_) fun hne => ?_
    · refine ((startMeasuring_triple (by decide) hidle).bind fun _ => ?_).strengthen
        fun _ h => h.2
      exact waitDone_triple
    · exact .ret fun _ h => absurd h.1 hne
  · refine getStatus_resting.bind fun status => .cond (fun heq => ?_) fun _ => ?_
    · rintro s ⟨-, hstatus⟩
      rw [heq] at hstatus
      obtain hstatus | hstatus := hstatus <;> cases hstatus
    · exact .ret fun _ h => h.1

theorem isMultipleDone_triple :
    Triple (Resting .measuring []) (isMultipleDone Sensors.bus)
      (fun b => if b then Resting .done [.left, .right, .frontLeft, .frontRight]
        else Resting .measuring []) Ended := by
  have hdone : StatusMultiple.done ≠ .notStarted := by decide
  apply Triple.some
  intro v
  apply Triple.guarded
  intro hv
  refine getStatus_triple.bind fun status => .cond (fun hstatus => ?_) fun _ => ?_
  · refine (areSysrangesDone_triple [.left, .right, .frontLeft, .frontRight]).conseq
      (P := Resting .done []) ?_ (fun b s h => ?_) fun _ _ h => h
    · rintro s ⟨hsince, rfl⟩
      exact ⟨v, hv, hsince.1, .inl hstatus⟩
    · cases b with
      | true => exact h
      | false =>
        obtain ⟨w, hw, hsince⟩ := h
        exact ⟨w, hw, hsince.measuring hdone⟩
  · exact .ret fun _ h => ⟨v, hv, h.1⟩

theorem readRangeMultiple_triple :
    Triple Good (vl53l0xReadRangeMultiple Sensors.bus fuel) (fun _ => Good) Ended := by
  have hmeasuring : StatusMultiple.measuring ≠ .notStarted := by decide
  refine Triple.bind (.read fun _ h => h) fun s => ?_
  refine (assert_triple _).bind fun _ => .guarded fun _ => ?_
  refine startIfNotStarted_triple.bind fun _ => ?_
  refine isMultipleDone_triple.bind fun done => .cond (fun hdone => ?_) fun _ => ?_
  · rw [if_pos hdone]
    refine readSensors_triple.bind fun _ => ?_
    refine Triple.bind (.read fun _ h => h) fun s => ?_
    exact .ret fun _ h => h.good hmeasuring
  · refine Triple.bind (.read fun _ h => h) fun s => .ret fun _ h => ?_
    split at h
    · exact h.good (by decide)
    · exact h.good hmeasuring

end

theorem call_ok {fuel : Nat} {s t : Vl53l0x Sensors} (hcall : call fuel s = .ok t) :
    (∃ ranges, vl53l0xReadRangeMultiple Sensors.bus fuel s = .ok ranges t) ∨
      ∃ r, vl53l0xReadRangeMultiple Sensors.bus fuel s = .error (.result r) t := by
  rw [call] at hcall
  split at hcall
  · rename_i hrun
    cases hcall
    exact .inl ⟨_, hrun⟩
  · rename_i hrun
    cases hcall
    exact .inr ⟨_, hrun⟩
  · cases hcall

theorem call_error {fuel : Nat} {s : Vl53l0x Sensors} {stop : Vl53l0xStop}
    (hcall : call fuel s = .error stop) :
    ∃ t, vl53l0xReadRangeMultiple Sensors.bus fuel s = .error stop t := by
  rw [call] at hcall
  split at hcall
  · cases hcall
  · cases hcall
  · rename_i hrun
    cases hcall
    exact ⟨_, hrun⟩

theorem call_good {fuel : Nat} {s t : Vl53l0x Sensors} (h : Good s) (hcall : call fuel s = .ok t) :
    Good t ∨ Lost t := by
  have hgood := @readRangeMultiple_triple fuel s h
  obtain ⟨ranges, hrun⟩ | ⟨r, hrun⟩ := call_ok hcall
  · rw [hrun] at hgood
    exact .inl hgood
  · rw [hrun] at hgood
    exact hgood r rfl

theorem Good.ranging {s : Vl53l0x Sensors} (h : Good s) : Ranging s := by
  obtain ⟨v, -, -, hstatus⟩ | ⟨v, ⟨-, hidle, -⟩, hsince⟩ := h
  · exact fun hstarted => absurd hstatus hstarted
  · intro _ idx hfront hsensor
    exact hidle ⟨idx, hfront, (hsince.1.idle idx).mp hsensor⟩

theorem Good.harmless {s : Vl53l0x Sensors} (h : Good s) : Harmless s.dev := by
  obtain ⟨v, -, hshows, -⟩ | ⟨v, -, hsince⟩ := h
  · exact hshows.harmless
  · exact hsince.1.harmless

theorem Initial.good {s : Vl53l0x Sensors} (h : Initial s) : Good s := by
  let v : View :=
    { slave := .frontRight, page := 0, idle := fun _ => true, finished := fun _ => false }
  refine .inl ⟨v, ⟨rfl, fun _ _ => ⟨rfl, rfl⟩⟩, ?_, h.statusMultiple⟩
  exact {
    initialized := h.initialized
    slaveAddress := h.slaveAddress
    page := fun idx => (h.page idx).trans (ite_self _).symm
    idle := fun idx => iff_of_true (h.idle idx) rfl
    finished := fun idx hfinished => by cases hfinished
    alone := fun idx hmeasuring => (h.idle idx).2
    fresh := fun _ => ⟨h.edge, rfl⟩
    harmless := by simp [Harmless, h.failed] }

def AfterCalls (P : Vl53l0x Sensors → Prop) (fuels : List Nat) (s : Vl53l0x Sensors) : Prop :=
  ∀ pre post t, fuels = pre ++ post → Run.run call pre s = .ok t → P t

theorem afterCalls_good {fuels : List Nat} {s : Vl53l0x Sensors} (hinit : Good s)
    {P : Vl53l0x Sensors → Prop} (hlost : ∀ t, Lost t → ¬P t) (h : AfterCalls P fuels s) :
    AfterCalls Good fuels s := by
  refine Run.afterEach_invariant (C := fun _ _ => True) (fun fuel s t _ hgood hcall hP => ?_)
    (fun _ _ _ _ _ _ => trivial) h hinit
  exact (call_good hgood hcall).resolve_right fun ht => hlost t ht hP

theorem ranging_iff {fuels : List Nat} {s : Vl53l0x Sensors} (hinit : Initial s) :
    AfterCalls Ranging fuels s ↔ AfterCalls (fun t => Harmless t.dev) fuels s := by
  constructor
  · intro h pre post t hsplit hrun
    exact (afterCalls_good hinit.good (fun t ht => ht.2) h pre post t hsplit hrun).harmless
  · intro h pre post t hsplit hrun
    exact (afterCalls_good hinit.good (fun t ht => ht.1) h pre post t hsplit hrun).ranging

def transientError : Vl53l0x Sensors where
  stopVariable := 0x3C
  statusMultiple := .notStarted
  initialized := true
  latestRanges _ := vl53l0xOutOfRange
  dev := {
    sensor := fun _ => ⟨0, false, false, 0⟩
    slaveAddress := 0x33
    edge := false
    events := fun _ => []
    outcomes := fun k => ⟨if k = 0 then some .timeout else none, 0, fun _ => 0⟩
    failed := [] }

theorem transientError_initial : Initial transientError where
  initialized := rfl
  statusMultiple := rfl
  latestRanges _ := rfl
  slaveAddress := rfl
  page _ := rfl
  idle _ := ⟨rfl, rfl⟩
  edge := rfl
  failed := rfl

theorem ranging_iff_transientError :
    AfterCalls Ranging [1] transientError ↔
      AfterCalls (fun t => Harmless t.dev) [1] transientError :=
  ranging_iff transientError_initial

theorem not_ranging_transientError : ¬AfterCalls Ranging [1] transientError := by
  intro h
  have hranging := h [1] [] _ rfl rfl
  exact hranging (by decide) .front (by decide) ⟨rfl, rfl⟩

end Vl53l0x

end Nsumo.Drivers
