import Nsumo.Drivers.Vl53l0xCallLaws
import Nsumo.Drivers.Vl53l0xSingle
import Nsumo.Drivers.Vl53l0xSnapshotLaws

namespace Nsumo.Drivers

open Common Lib

namespace Vl53l0x

structure Singly (q : Vl53l0xIdx → List (BitVec 16)) (slave : Vl53l0xIdx) (page : Byte) (e : Expect)
    (s : Vl53l0x Observed) : Prop where
  initialized : s.initialized = true
  slaveAddress : s.dev.sensors.slaveAddress = vl53l0xCfgs slave
  page : (s.dev.sensors.sensor slave).page = page
  expect : e.Holds (s.dev.sensors.sensor slave) (s.dev.log slave)
  others (i : Vl53l0xIdx) : i ≠ slave → (s.dev.sensors.sensor i).page = 0 ∧
    (Expect.waits (q i)).Holds (s.dev.sensors.sensor i) (s.dev.log i)

def SingleEnds (stop : Vl53l0xStop) (_ : Vl53l0x Observed) : Prop :=
  stop = .fuel ∨ stop = .result .errorI2c

section

variable {q : Vl53l0xIdx → List (BitVec 16)} {idx slave : Vl53l0xIdx} {page page' : Byte}
  {e e' : Expect} {s : Vl53l0x Observed} {reg data : Byte} {range : BitVec 16} {fuel : Nat}

theorem Singly.passed (h : Singly q slave page e s) : Singly q slave page e (passed s) := by
  have hframe := Sensors.happen_frame (s.dev.sensors.events 0) s.dev.sensors
  have hkept (i : Vl53l0xIdx) := Sensors.happen_kept (s.dev.sensors.events 0) i s.dev.sensors
  have hstep (i : Vl53l0xIdx) := Sensors.happen_step (s.dev.sensors.events 0) i s.dev.sensors
  rw [passed_eq]
  refine ⟨h.initialized, hframe.1.trans h.slaveAddress, (hkept slave).page.trans h.page,
    h.expect.step (hstep slave), fun i hi => ?_⟩
  exact ⟨(hkept i).page.trans (h.others i hi).1, (h.others i hi).2.step (hstep i)⟩

theorem Singly.wrote (h : Singly q slave page e s)
    (hpage : ((s.dev.sensors.sensor slave).write reg data).page = page')
    (hexpect : e'.Holds ((s.dev.sensors.sensor slave).write reg data)
      (if (s.dev.sensors.sensor slave).starts reg [data] then s.dev.log slave ++ [.started]
        else s.dev.log slave)) :
    Singly q slave page' e' { s with dev := s.dev.wrote reg data slave } := by
  have hsensors := @Observed.wrote_sensors s.dev reg data slave
  refine ⟨h.initialized, ?_, ?_, ?_, fun i hi => ?_⟩
  · rw [hsensors]
    exact h.slaveAddress
  · rw [hsensors]
    simpa only [Function.update_self] using hpage
  · rw [hsensors, Observed.wrote_log_self]
    simpa only [Function.update_self] using hexpect
  · rw [hsensors, Observed.wrote_log_of_ne hi]
    simpa only [Function.update_of_ne hi] using h.others i hi

theorem write_singly
    (hwrote : ∀ sensor log, sensor.page = page → e.Holds sensor log →
      (sensor.write reg data).page = page' ∧ e'.Holds (sensor.write reg data)
        (if sensor.starts reg [data] then log ++ [.started] else log)) :
    Triple (Singly q slave page e) (i2cWriteAddr8Data8 Observed.bus reg data)
      (After SingleEnds (Singly q slave page' e')) SingleEnds := by
  intro s hs
  have hs := hs.passed
  change After SingleEnds (Singly q slave page' e')
    (Observed.write reg [data] (Vl53l0x.passed s).dev).1
    { Vl53l0x.passed s with dev := (Observed.write reg [data] (Vl53l0x.passed s).dev).2 }
  obtain hok | ⟨-, error, hfail⟩ := Observed.write_cases hs.slaveAddress reg data
  · rw [hok]
    have hsensor := hwrote _ _ hs.page hs.expect
    exact hs.wrote hsensor.1 hsensor.2
  · rw [hfail]
    exact .inr rfl

theorem plain_singly (hreg : reg ≠ 0xFF)
    (hplain : page ≠ 0 ∨ reg ≠ regSysrangeStart ∧ reg ≠ regSystemInterruptClear) :
    Triple (Singly q slave page e) (i2cWriteAddr8Data8 Observed.bus reg data)
      (After SingleEnds (Singly q slave page e)) SingleEnds := by
  refine write_singly fun sensor log hpage hexpect => ?_
  rw [Sensor.write_plain hreg (by rwa [hpage]),
    Sensor.starts_plain (by rw [hpage]; exact hplain.imp id And.left)]
  exact ⟨hpage, hexpect⟩

theorem page_singly (page' : Byte) :
    Triple (Singly q slave page e) (i2cWriteAddr8Data8 Observed.bus 0xFF page')
      (After SingleEnds (Singly q slave page' e)) SingleEnds := by
  refine write_singly fun sensor log hpage hexpect => ?_
  rw [Sensor.write_page, Sensor.starts_page]
  exact ⟨rfl, hexpect.page page'⟩

theorem start_singly :
    Triple (Singly q idx 0 (.waits (q idx))) (i2cWriteAddr8Data8 Observed.bus regSysrangeStart 0x01)
      (After SingleEnds (Singly q idx 0 (.runs (q idx)))) SingleEnds := by
  refine write_singly fun sensor log hpage hwaits => ?_
  rw [Sensor.write_start hpage, Sensor.starts_start hpage]
  exact ⟨hpage, .inl ⟨rfl, hwaits.1.2, congrArg (· ++ _) hwaits.2⟩⟩

theorem clear_singly {l : List (BitVec 16)}
    (hkept : ∀ sensor log, e.Holds sensor log → (Expect.kept l).Holds sensor log) :
    Triple (Singly q idx 0 e) (i2cWriteAddr8Data8 Observed.bus regSystemInterruptClear 0x01)
      (After SingleEnds (Singly q idx 0 (.waits l))) SingleEnds := by
  refine write_singly fun sensor log hpage hexpect => ?_
  obtain ⟨hstill, hlog⟩ := hkept sensor log hexpect
  rw [Sensor.write_clear hpage, Sensor.starts_plain (.inr (by decide))]
  exact ⟨hpage, ⟨hstill, rfl⟩, hlog⟩

theorem Singly.got (h : Singly q slave page e s) (hreg : reg ≠ regResultRangeStatus + 10) :
    Singly q slave page e { s with dev := s.dev.got reg slave } := by
  rw [Observed.got_other hreg]
  exact ⟨h.initialized, h.slaveAddress, h.page, h.expect, h.others⟩

theorem read8_singly (hreg : reg ≠ regResultRangeStatus + 10) :
    Triple (Singly q slave page e) (i2cReadAddr8Data8 Observed.bus reg)
      (fun r => After SingleEnds (fun s => Singly q slave page e s ∧
        ∃ values, r.2 = (s.dev.sensors.sensor slave).read values reg) r.1) SingleEnds := by
  intro s hs
  have hs := hs.passed
  obtain hrun | ⟨-, error, data, hrun⟩ := Observed.read8_cases hs.slaveAddress hreg
  · rw [hrun]
    refine ⟨hs.got hreg, ((Vl53l0x.passed s).dev.sensors.outcomes 0).values, ?_⟩
    rw [Observed.got_other hreg]
  · rw [hrun]
    exact .inr rfl

theorem startSysrange_singly :
    Triple (fun s => ∃ slave, Singly q slave 0 (.waits (q slave)) s)
      (vl53l0xStartSysrange Observed.bus fuel idx) (fun _ => Singly q idx 0 (.runs (q idx)))
      SingleEnds := by
  have haddress : Triple (fun s => ∃ slave, Singly q slave 0 (.waits (q slave)) s)
      (i2cSetSlaveAddress Observed.bus (vl53l0xCfgs idx))
      (fun _ => Singly q idx 0 (.waits (q idx))) SingleEnds := by
    refine .update fun s ⟨slave, hs⟩ => ?_
    have hall (i : Vl53l0xIdx) : (s.dev.sensors.sensor i).page = 0 ∧
        (Expect.waits (q i)).Holds (s.dev.sensors.sensor i) (s.dev.log i) := by
      by_cases hi : i = slave
      · subst hi
        exact ⟨hs.page, hs.expect⟩
      · exact hs.others i hi
    exact ⟨hs.initialized, rfl, (hall idx).1, (hall idx).2, fun i _ => hall i⟩
  have hread : Triple (Singly q idx 0 (.runs (q idx)))
      (i2cReadAddr8Data8 Observed.bus regSysrangeStart)
      (fun r => After SingleEnds (Singly q idx 0 (.runs (q idx))) r.1) SingleEnds :=
    (read8_singly (by decide)).conseq (fun _ h => h) (fun _ _ h => h.mono fun _ h => h.1)
      fun _ _ h => h
  exact startSysrange_rule (fun _ => .inl rfl) haddress
    (fun _ => plain_singly (by decide) (.inr (by decide))) (page_singly 0x01)
    (fun _ _ hreg => plain_singly hreg (.inl (by decide))) (page_singly 0x00)
    (fun _ => plain_singly (by decide) (.inr (by decide))) start_singly hread

theorem pollRegister_until {δ : Type} {bus : Bus δ} {E : Vl53l0xStop → Vl53l0x δ → Prop}
    {P Q : Vl53l0x δ → Prop} {again : Byte → Bool} (hfuel : ∀ t, E .fuel t)
    (hread : Triple P (i2cReadAddr8Data8 bus reg)
      (fun r => After E (fun s => P s ∧ (again r.2 = false → Q s)) r.1) E) :
    Triple P (pollRegister bus reg again fuel) (fun _ => Q) E := by
  induction fuel with
  | zero => exact .raise fun t _ => hfuel t
  | succ fuel ih =>
    refine hread.bind fun r => (check_rule r.1).bind fun _ => .cond (fun _ => ?_) fun hagain => ?_
    · exact ih.strengthen fun _ h => h.1
    · exact .ret fun _ h => h.2 (Bool.eq_false_iff.mpr hagain)

theorem pollwait_singly :
    Triple (Singly q idx 0 (.runs (q idx))) (vl53l0xPollwaitSysrange Observed.bus fuel)
      (fun _ s => ∃ range, Singly q idx 0 (.done (q idx) range) s) SingleEnds := by
  refine pollRegister_until (fun _ => .inl rfl) ((read8_singly (by decide)).conseq (fun _ h => h)
    (fun r _ h => h.mono fun s ⟨hs, values, hr⟩ => ⟨hs, fun hdone => ?_⟩) fun _ _ h => h)
  have hstatus : r.2 &&& 0x07 ≠ 0 := beq_eq_false_iff_ne.mp hdone
  rw [hr] at hstatus
  have hinterrupt := interruptStatus_done hs.page hstatus
  obtain ⟨-, hnot, -⟩ | ⟨hstill, -, hlog⟩ := hs.expect
  · cases hnot.symm.trans hinterrupt
  · exact ⟨_, hs.initialized, hs.slaveAddress, hs.page, ⟨hstill, hinterrupt, rfl, hlog⟩, hs.others⟩

theorem read16_singly (old : Nat) :
    Triple (Singly q idx 0 (.done (q idx) range))
      (i2cReadAddr8Data16 Observed.bus (regResultRangeStatus + 10) old)
      (fun r => After SingleEnds (fun s => r.2 = range.toNat ∧
        Singly q idx 0 (.kept (q idx ++ [range])) s) r.1) SingleEnds := by
  refine Triple.bind (Q := fun r => After SingleEnds (fun s =>
    (r.2.headD 0).toNat + 256 * (r.2.tail.headD 0).toNat = range.toNat ∧
      Singly q idx 0 (.kept (q idx ++ [range])) s) r.1) ?_ fun r => .ret fun _ h => h
  intro s hs
  have hs := hs.passed
  let data := [BitVec.ofNat 8 old, BitVec.ofNat 8 (old / 256)]
  have hrun : i2cReadBytes Observed.bus (regResultRangeStatus + 10) data s =
      .ok ((Observed.read (regResultRangeStatus + 10) data (Vl53l0x.passed s).dev).1,
          (Observed.read (regResultRangeStatus + 10) data (Vl53l0x.passed s).dev).2.1)
        { Vl53l0x.passed s with
          dev := (Observed.read (regResultRangeStatus + 10) data (Vl53l0x.passed s).dev).2.2 } :=
    rfl
  rw [hrun]
  obtain hok | ⟨-, error, bytes, touched, hfail, -⟩ :=
    Observed.read_cases hs.slaveAddress (regResultRangeStatus + 10) data
  · rw [hok]
    obtain ⟨hstill, -, hrange, hlog⟩ := hs.expect
    refine ⟨?_, ?_⟩
    · rw [← hrange]
      exact Sensor.read_range _ hs.page
    · rw [Observed.got_range hs.page]
      refine ⟨hs.initialized, hs.slaveAddress, hs.page, ⟨hstill, ?_⟩, fun i hi => ?_⟩
      · simp only [Observed.note, Function.update_self]
        rw [hlog, hrange, rounds_concat]
      · simp only [Observed.note, Function.update_of_ne hi]
        exact hs.others i hi
  · rw [hfail]
    exact .inr rfl

theorem readRangeSingle_singly (old : Nat) :
    Triple (fun s => ∃ slave, Singly q slave 0 (.waits (q slave)) s)
      (vl53l0xReadRangeSingle Observed.bus fuel idx old)
      (fun r s => ∃ range, r = toRange range ∧ Singly q idx 0 (.waits (q idx ++ [range])) s)
      SingleEnds := by
  refine Triple.bind
    (Q := fun r s => r.initialized = true ∧ ∃ slave, Singly q slave 0 (.waits (q slave)) s)
    (.read fun s h => ⟨h.choose_spec.initialized, h⟩) fun r => .guarded fun hr => ?_
  rw [hr]
  refine Triple.bind (Q := fun _ s => ∃ slave, Singly q slave 0 (.waits (q slave)) s)
    (.ret fun _ h => h) fun _ => startSysrange_singly.bind fun _ => ?_
  have haddress : Triple (Singly q idx 0 (.runs (q idx)))
      (i2cSetSlaveAddress Observed.bus (vl53l0xCfgs idx))
      (fun _ => Singly q idx 0 (.runs (q idx))) SingleEnds :=
    .update fun s h => ⟨h.initialized, rfl, h.page, h.expect, h.others⟩
  refine haddress.bind fun _ => pollwait_singly.bind fun _ => .some fun range => ?_
  refine (read16_singly old).bind fun r => (check_rule r.1).bind fun _ => .guarded fun hr => ?_
  have hclear : Triple (Singly q idx 0 (.kept (q idx ++ [range])))
      (i2cWriteAddr8Data8 Observed.bus regSystemInterruptClear 0x01)
      (After SingleEnds (Singly q idx 0 (.waits (q idx ++ [range])))) SingleEnds :=
    clear_singly fun _ _ h => h
  have hagain : Triple (Singly q idx 0 (.waits (q idx ++ [range])))
      (i2cWriteAddr8Data8 Observed.bus regSystemInterruptClear 0x01)
      (After SingleEnds (Singly q idx 0 (.waits (q idx ++ [range])))) SingleEnds :=
    clear_singly fun _ _ h => ⟨h.1.1, h.2⟩
  refine hclear.bind fun error => (check_rule error).bind fun _ => ?_
  refine (write_rule hagain).bind fun _ => .ret fun s h => ⟨range, ?_, h⟩
  rw [hr, toRange]

theorem Singly.next (h : Singly q idx 0 (.waits (q idx ++ [range])) s) :
    ∃ slave, Singly (Function.update q idx (q idx ++ [range])) slave 0
      (.waits (Function.update q idx (q idx ++ [range]) slave)) s := by
  refine ⟨idx, h.initialized, h.slaveAddress, h.page, ?_, fun i hi => ?_⟩
  · rw [Function.update_self]
    exact h.expect
  · rw [Function.update_of_ne hi]
    exact h.others i hi

def measured (idx : Vl53l0xIdx) (idxs : List Vl53l0xIdx) (ranges : List (BitVec 16)) :
    List (BitVec 16) :=
  ((idxs.zip ranges).filter fun measurement => measurement.1 = idx).map Prod.snd

structure Measured (q : Vl53l0xIdx → List (BitVec 16)) (idxs : List Vl53l0xIdx) (answers : List Nat)
    (ranges : List (BitVec 16)) (s : Vl53l0x Observed) : Prop where
  length : ranges.length = idxs.length
  answers : answers = ranges.map toRange
  logs (idx : Vl53l0xIdx) : s.dev.log idx = rounds (q idx ++ measured idx idxs ranges)

theorem readSingles_measured (idxs : List Vl53l0xIdx) :
    Triple (fun s => ∃ slave, Singly q slave 0 (.waits (q slave)) s)
      (readSingles Observed.bus fuel idxs)
      (fun answers s => ∃ ranges, Measured q idxs answers ranges s) SingleEnds := by
  induction idxs generalizing q with
  | nil =>
    refine .ret fun s ⟨slave, h⟩ => ⟨[], rfl, rfl, fun i => ?_⟩
    rw [measured, List.zip_nil_left, List.filter_nil, List.map_nil, List.append_nil]
    by_cases hi : i = slave
    · subst hi
      exact h.expect.2
    · exact (h.others i hi).2.2
  | cons idx idxs ih =>
    refine (readRangeSingle_singly 0).bind fun r => .some fun range => .guarded fun hr => ?_
    refine ((@ih (Function.update q idx (q idx ++ [range]))).strengthen fun _ h => h.next).bind
      fun answers => .ret fun s ⟨ranges, h⟩ => ⟨range :: ranges, ?_, ?_, fun i => ?_⟩
    · rw [List.length_cons, List.length_cons, h.length]
    · rw [hr, h.answers, List.map_cons]
    · rw [h.logs i]
      by_cases hi : i = idx
      · subst hi
        simp [measured]
      · simp [measured, Function.update_of_ne hi, Ne.symm hi]

theorem singles_measure {s : Vl53l0x Sensors} (hinitial : Initial s) (fuel : Nat)
    (idxs : List Vl53l0xIdx) :
    (∀ answers t, readSingles Observed.bus fuel idxs (observe s) = .ok answers t →
        ∃ ranges, Measured (fun _ => []) idxs answers ranges t) ∧
      ∀ stop t, readSingles Observed.bus fuel idxs (observe s) = .error stop t →
        stop = .fuel ∨ stop = .result .errorI2c := by
  have hstart : ∃ slave, Singly (fun _ => []) slave 0 (.waits []) (observe s) :=
    ⟨.frontRight, hinitial.initialized, hinitial.slaveAddress, hinitial.page _,
      ⟨hinitial.idle _, rfl⟩, fun i _ => ⟨hinitial.page i, hinitial.idle i, rfl⟩⟩
  exact ⟨fun _ _ => (readSingles_measured idxs).ok hstart,
    fun _ _ => (readSingles_measured idxs).error hstart⟩

theorem singles_measure_front :
    (∀ answers t, readSingles Observed.bus 30 [.front] (observe inTime) = .ok answers t →
        ∃ ranges, Measured (fun _ => []) [.front] answers ranges t) ∧
      ∀ stop t, readSingles Observed.bus 30 [.front] (observe inTime) = .error stop t →
        stop = .fuel ∨ stop = .result .errorI2c :=
  singles_measure inTime_initial 30 [.front]

end

end Vl53l0x

end Nsumo.Drivers
