import Nsumo.Drivers.Vl53l0xLaws
import Nsumo.Drivers.Vl53l0xObserved
import Nsumo.Lib.Image
import Nsumo.Lib.Run

namespace Nsumo.Drivers

open Common Lib

structure Bus.Maps {δ δ' : Type} (f : δ → δ') (bus : Bus δ) (bus' : Bus δ') : Prop where
  elapse (d : δ) : bus'.elapse (f d) = ((bus.elapse d).1, f (bus.elapse d).2)
  setSlaveAddress (addr : Byte) (d : δ) :
    bus'.setSlaveAddress addr (f d) = f (bus.setSlaveAddress addr d)
  write (reg : Byte) (data : List Byte) (d : δ) :
    bus'.write reg data (f d) = ((bus.write reg data d).1, f (bus.write reg data d).2)
  read (reg : Byte) (data : List Byte) (d : δ) :
    bus'.read reg data (f d) =
      ((bus.read reg data d).1, (bus.read reg data d).2.1, f (bus.read reg data d).2.2)

namespace Vl53l0x

def mapDev {δ δ' : Type} (f : δ → δ') (s : Vl53l0x δ) : Vl53l0x δ' where
  stopVariable := s.stopVariable
  statusMultiple := s.statusMultiple
  initialized := s.initialized
  latestRanges := s.latestRanges
  dev := f s.dev

section

variable {δ δ' : Type} {f : δ → δ'} {bus : Bus δ} {bus' : Bus δ'}

theorem assert_alike (expression : Bool) :
    Alike (mapDev f) (vl53l0xAssert expression) (vl53l0xAssert expression) :=
  .cond (.ret _) (.raise _)

theorem check_alike (error : Option I2cError) : Alike (mapDev f) (check error) (check error) := by
  cases error with
  | none => exact .ret _
  | some e => exact .raise _

theorem setLatestRange_alike (idx : Vl53l0xIdx) (range : Nat) :
    Alike (mapDev f) (setLatestRange idx range) (setLatestRange idx range) :=
  .update fun _ => rfl

theorem elapse_alike (h : Bus.Maps f bus bus') :
    Alike (mapDev f) (elapse bus) (elapse bus') := by
  refine .update fun s => ?_
  simp only [mapDev, h.elapse]
  split <;> rfl

theorem getStatus_alike (h : Bus.Maps f bus bus') :
    Alike (mapDev f) (getStatusMultiple bus) (getStatusMultiple bus') :=
  (elapse_alike h).bind fun _ => .read fun _ => .ret _

theorem setStatus_alike (h : Bus.Maps f bus bus') (status : StatusMultiple) :
    Alike (mapDev f) (setStatusMultiple bus status) (setStatusMultiple bus' status) :=
  (elapse_alike h).bind fun _ => .update fun _ => rfl

theorem setSlaveAddress_alike (h : Bus.Maps f bus bus') (addr : Byte) :
    Alike (mapDev f) (i2cSetSlaveAddress bus addr) (i2cSetSlaveAddress bus' addr) := by
  refine .update fun s => ?_
  simp only [mapDev, h.setSlaveAddress]

theorem write_alike (h : Bus.Maps f bus bus') (addr data : Byte) :
    Alike (mapDev f) (i2cWriteAddr8Data8 bus addr data) (i2cWriteAddr8Data8 bus' addr data) := by
  refine (elapse_alike h).bind fun _ => .updateGet fun s => ?_
  simp only [mapDev, h.write]

theorem readBytes_alike (h : Bus.Maps f bus bus') (addr : Byte) (data : List Byte) :
    Alike (mapDev f) (i2cReadBytes bus addr data) (i2cReadBytes bus' addr data) := by
  refine (elapse_alike h).bind fun _ => .updateGet fun s => ?_
  simp only [mapDev, h.read]

theorem read8_alike (h : Bus.Maps f bus bus') (addr : Byte) :
    Alike (mapDev f) (i2cReadAddr8Data8 bus addr) (i2cReadAddr8Data8 bus' addr) :=
  (readBytes_alike h addr [0]).bind fun _ => .ret _

theorem read16_alike (h : Bus.Maps f bus bus') (addr : Byte) (data : Nat) :
    Alike (mapDev f) (i2cReadAddr8Data16 bus addr data) (i2cReadAddr8Data16 bus' addr data) :=
  (readBytes_alike h addr _).bind fun _ => .ret _

theorem write8regs_alike (h : Bus.Maps f bus bus') (regs : List (Byte × Byte)) :
    Alike (mapDev f) (vl53l0xWrite8regs bus regs) (vl53l0xWrite8regs bus' regs) := by
  induction regs with
  | nil => exact .ret _
  | cons reg regs ih =>
    exact (write_alike h reg.1 reg.2).bind fun error => (check_alike error).bind fun _ => ih

theorem pollRegister_alike (h : Bus.Maps f bus bus') (addr : Byte) (again : Byte → Bool)
    (fuel : Nat) :
    Alike (mapDev f) (pollRegister bus addr again fuel) (pollRegister bus' addr again fuel) := by
  induction fuel with
  | zero => exact .raise _
  | succ fuel ih =>
    exact (read8_alike h addr).bind fun r => (check_alike r.1).bind fun _ => .cond ih (.ret _)

theorem startSysrange_alike (h : Bus.Maps f bus bus') (fuel : Nat) (idx : Vl53l0xIdx) :
    Alike (mapDev f) (vl53l0xStartSysrange bus fuel idx) (vl53l0xStartSysrange bus' fuel idx) := by
  refine (setSlaveAddress_alike h _).bind fun _ => (write8regs_alike h _).bind fun _ => ?_
  refine .read fun s => (write_alike h _ _).bind fun error => (check_alike error).bind fun _ => ?_
  refine (write8regs_alike h _).bind fun _ => (write_alike h _ _).bind fun error => ?_
  exact (check_alike error).bind fun _ => pollRegister_alike h _ _ fuel

theorem isSysrangeDone_alike (h : Bus.Maps f bus bus') (idx : Vl53l0xIdx) :
    Alike (mapDev f) (vl53l0xIsSysrangeDone bus idx) (vl53l0xIsSysrangeDone bus' idx) := by
  refine .cond (.ret _) ?_
  exact (setSlaveAddress_alike h _).bind fun _ => (read8_alike h _).bind fun _ => .ret _

theorem readRange_alike (h : Bus.Maps f bus bus') (fuel : Nat) (idx : Vl53l0xIdx) :
    Alike (mapDev f) (vl53l0xReadRange bus fuel idx) (vl53l0xReadRange bus' fuel idx) := by
  refine (setSlaveAddress_alike h _).bind fun _ => (pollRegister_alike h _ _ fuel).bind fun _ => ?_
  refine .read fun s => (read16_alike h _ _).bind fun r => ?_
  refine (setLatestRange_alike idx r.2).bind fun _ => (check_alike r.1).bind fun _ => ?_
  refine (write_alike h _ _).bind fun error => (check_alike error).bind fun _ => ?_
  refine (setLatestRange_alike idx _).bind fun _ => ?_
  exact (write_alike h _ _).bind check_alike

theorem startMeasuring_alike (h : Bus.Maps f bus bus') (fuel : Nat) :
    Alike (mapDev f) (vl53l0xStartMeasuringMultiple bus fuel)
      (vl53l0xStartMeasuringMultiple bus' fuel) := by
  refine .read fun s => (assert_alike _).bind fun _ => (getStatus_alike h).bind fun status => ?_
  refine .cond (.raise _) ((setStatus_alike h _).bind fun _ => ?_)
  refine (startSysrange_alike h fuel _).bind fun _ => ?_
  exact (startSysrange_alike h fuel _).bind fun _ => startSysrange_alike h fuel _

theorem waitDone_alike (h : Bus.Maps f bus bus') (fuel : Nat) :
    Alike (mapDev f) (waitDone bus fuel) (waitDone bus' fuel) := by
  induction fuel with
  | zero => exact .raise _
  | succ fuel ih => exact (getStatus_alike h).bind fun status => .cond ih (.ret _)

theorem startIfNotStarted_alike (h : Bus.Maps f bus bus') (fuel : Nat) :
    Alike (mapDev f) (startIfNotStarted bus fuel) (startIfNotStarted bus' fuel) :=
  (getStatus_alike h).bind fun _ =>
    .cond ((startMeasuring_alike h fuel).bind fun _ => waitDone_alike h fuel) (.ret _)

theorem areSysrangesDone_alike (h : Bus.Maps f bus bus') (idxs : List Vl53l0xIdx) :
    Alike (mapDev f) (areSysrangesDone bus idxs) (areSysrangesDone bus' idxs) := by
  induction idxs with
  | nil => exact .ret _
  | cons idx idxs ih => exact (isSysrangeDone_alike h idx).bind fun _ => .cond ih (.ret _)

theorem isMultipleDone_alike (h : Bus.Maps f bus bus') :
    Alike (mapDev f) (isMultipleDone bus) (isMultipleDone bus') :=
  (getStatus_alike h).bind fun _ => .cond (areSysrangesDone_alike h _) (.ret _)

theorem readSensors_alike (h : Bus.Maps f bus bus') (fuel : Nat) :
    Alike (mapDev f) (readSensors bus fuel) (readSensors bus' fuel) := by
  refine (isSysrangeDone_alike h _).bind fun done => (assert_alike done).bind fun _ => ?_
  refine (readRange_alike h fuel _).bind fun _ => (readRange_alike h fuel _).bind fun _ => ?_
  exact (readRange_alike h fuel _).bind fun _ => startMeasuring_alike h fuel

theorem readRangeMultiple_alike (h : Bus.Maps f bus bus') (fuel : Nat) :
    Alike (mapDev f) (vl53l0xReadRangeMultiple bus fuel) (vl53l0xReadRangeMultiple bus' fuel) := by
  refine .read fun s => (assert_alike _).bind fun _ => ?_
  refine (startIfNotStarted_alike h fuel).bind fun _ => ?_
  refine (isMultipleDone_alike h).bind fun done => .cond ?_ ?_
  · exact (readSensors_alike h fuel).bind fun _ => .read fun _ => .ret _
  · exact .read fun _ => .ret _

end

theorem Observed.write_sensors (reg : Byte) (data : List Byte) (d : Observed) :
    Sensors.write reg data d.sensors =
      ((Observed.write reg data d).1, (Observed.write reg data d).2.sensors) := by
  rw [Observed.write]
  cases haddr : Sensors.addressee d.sensors.slaveAddress with
  | none =>
    rw [Sensors.write, Sensors.nextError_none haddr, haddr]
    rfl
  | some idx =>
    rw [Sensors.write, Sensors.nextError_some haddr, haddr]
    cases herror : (d.sensors.outcomes 0).error with
    | none =>
      simp only
      split <;> rfl
    | some e => rfl

theorem Observed.read_sensors (reg : Byte) (data : List Byte) (d : Observed) :
    Sensors.read reg data d.sensors =
      ((Observed.read reg data d).1, (Observed.read reg data d).2.1,
        (Observed.read reg data d).2.2.sensors) := by
  rw [Observed.read]
  cases haddr : Sensors.addressee d.sensors.slaveAddress with
  | none =>
    rw [Sensors.read, Sensors.nextError_none haddr, haddr]
    rfl
  | some idx =>
    rw [Sensors.read, Sensors.nextError_some haddr, haddr]
    cases herror : (d.sensors.outcomes 0).error with
    | none =>
      simp only
      split <;> rfl
    | some e => rfl

theorem observed_maps : Bus.Maps Observed.sensors Observed.bus Sensors.bus where
  elapse _ := rfl
  setSlaveAddress _ _ := rfl
  write := Observed.write_sensors
  read := Observed.read_sensors

def Forgets (c : Vl53l0x Observed × List Answer) (s : Vl53l0x Sensors) : Prop :=
  mapDev Observed.sensors c.1 = s

theorem answeredCall_forgets {fuel : Nat} {c : Vl53l0x Observed × List Answer}
    {s : Vl53l0x Sensors} (h : Forgets c s) :
    Run.Together Forgets (answeredCall fuel c) (call fuel s) := by
  obtain ⟨t, answers⟩ := c
  have hbegin : mapDev Observed.sensors (beginCall t) = s := h
  have hrun := readRangeMultiple_alike observed_maps fuel (beginCall t)
  rw [answeredCall, call, ← hbegin, hrun]
  cases vl53l0xReadRangeMultiple Observed.bus fuel (beginCall t) with
  | ok ranges u => exact rfl
  | error stop u =>
    cases stop with
    | result r => exact rfl
    | assert => exact rfl
    | fuel => exact rfl

theorem run_forgets (fuels : List Nat) (s : Vl53l0x Sensors) :
    Run.Together Forgets (Run.run answeredCall fuels (observe s, [])) (Run.run call fuels s) := by
  have hrun := Run.run_together (f := id) (C := fun _ _ => True)
    (fun fuel c s _ h => @answeredCall_forgets fuel c s h)
    (fun _ _ _ _ _ _ => trivial : Run.Along answeredCall _ fuels (observe s, [])) rfl
  rwa [List.map_id] at hrun

end Vl53l0x

end Nsumo.Drivers
