import Nsumo.Drivers.IoConfigLaws
import Nsumo.Drivers.Vl53l0xInit
import Nsumo.Drivers.Vl53l0xSpadRules

namespace Nsumo.Drivers

open Common Lib

namespace Vl53l0x

/-- Neither a SPAD enable nor the address nor the stop variable, which have a meaning beyond the
function that writes them. -/
def plainReg (reg : Byte) : Bool :=
  !SpadDevice.isSpadEnable reg && reg != regSlaveDeviceAddress && reg != 0x91

structure InitCarries {δ : Type} (bus : Bus δ) (board : Board δ) (P : Vl53l0x δ → Prop)
    (E : Vl53l0xStop → Vl53l0x δ → Prop) : Prop extends CarriesOn plainReg bus P E where
  raise (stop : Vl53l0xStop) (s : Vl53l0x δ) : P s → E stop s
  readMap (data : List Byte) :
    Triple P (i2cReadBytes bus regGlobalConfigSpadEnablesRef0 data)
      (fun r s => match r.1 with
        | none => P s
        | some error => E (.result (i2cResult error)) s) E
  writeMap (data : List Byte) :
    Triple P (i2cWriteBytes bus regGlobalConfigSpadEnablesRef0 data) (After E P) E
  setInterrupts (regs : IoRegs PinIsr) (s : Vl53l0x δ) :
    P s → P { s with dev := board.setInterrupts regs s.dev }

section

variable {δ : Type} {bus : Bus δ} {board : Board δ} {E : Vl53l0xStop → Vl53l0x δ → Prop}
  {P P₀ P₁ Q : Vl53l0x δ → Prop} {idx : Vl53l0xIdx}

theorem assert_rule {expression : Bool} (hfail : expression = false → ∀ s, P s → E .assert s) :
    Triple P (vl53l0xAssert expression : Driver δ Unit) (fun _ s => expression = true ∧ P s) E := by
  cases expression with
  | false => exact .raise (hfail rfl)
  | true => exact .ret fun _ hs => ⟨rfl, hs⟩

theorem assertConfig_rule (config : IoConfig) (io : Io) (hfail : ∀ s, P s → E .assert s) :
    Triple P (assertConfig board config io)
      (fun _ s => PortRegs.ioGetCurrentConfig io (board.ports s.dev) = config ∧ P s) E := by
  refine Triple.bind (Q := fun r s => s = r ∧ P s) (.read fun _ hs => ⟨rfl, hs⟩) fun r => ?_
  refine (assert_rule fun _ s hs => hfail s hs.2).conseq (fun _ hs => hs) (fun _ s hs => ?_)
    fun _ _ hE => hE
  obtain ⟨hcompare, rfl, hP⟩ := hs
  exact ⟨(ioConfigCompare_iff.mp hcompare).symm, hP⟩

theorem assertXshutPins_rule (hfail : ∀ s, P s → E .assert s) :
    Triple P (vl53l0xAssertXshutPins board)
      (fun _ s => (∀ idx, PortRegs.ioGetCurrentConfig (xshutIo idx) (board.ports s.dev) =
        xshutConfig) ∧ P s) E := by
  refine (assertConfig_rule _ _ hfail).bind fun _ => ?_
  refine (assertConfig_rule _ _ fun s hs => hfail s hs.2).bind fun _ => ?_
  refine (assertConfig_rule _ _ fun s hs => hfail s hs.2.2).bind fun _ => ?_
  refine (assertConfig_rule _ _ fun s hs => hfail s hs.2.2.2).bind fun _ => ?_
  refine (assertConfig_rule _ _ fun s hs => hfail s hs.2.2.2.2).conseq (fun _ hs => hs)
    (fun _ s hs => ?_) fun _ _ hE => hE
  obtain ⟨hright, hleft, hfrontRight, hfrontLeft, hfront, hP⟩ := hs
  refine ⟨fun idx => ?_, hP⟩
  cases idx with
  | front => exact hfront
  | left => exact hleft
  | right => exact hright
  | frontLeft => exact hfrontLeft
  | frontRight => exact hfrontRight

theorem deviceIsBooted_rule (h : CarriesOn plainReg bus P E)
    (hfail : ∀ s, P s → E (.result .errorBoot) s) :
    Triple P (deviceIsBooted bus) (fun _ => P) E := by
  refine (h.read8 rfl).bind fun r => (check_rule r.1).bind fun _ => ?_
  exact .cond (fun _ => .ret fun _ hs => hs) fun _ => .raise hfail

/-- `P₀` once the sensor is awake, `P₁` once the driver talks to the default address. -/
theorem initAddress_rule
    (hwake : ∀ s, P s → P₀ { s with
      dev := board.setPorts
        (PortRegs.ioSetOut (xshutIo idx) .high (board.ports s.dev)) s.dev })
    (haddress : Triple P₀ (i2cSetSlaveAddress bus vl53l0xDefaultAddress) (fun _ => P₁) E)
    (hboot : Triple P₁ (deviceIsBooted bus) (fun _ => P₁) E)
    (hconfigure : Triple P₁
      (i2cWriteAddr8Data8 bus regSlaveDeviceAddress (vl53l0xCfgs idx &&& 0x7F)) (After E Q) E) :
    Triple P (vl53l0xInitAddress bus board idx) (fun _ => Q) E :=
  (Triple.update hwake).bind fun _ => haddress.bind fun _ => hboot.bind fun _ =>
    write_rule hconfigure

/-- `S` once the stop variable is read, with what was read not stored yet. -/
theorem dataInit_rule {S : Option I2cError × List Byte → Vl53l0x δ → Prop}
    (h : CarriesOn plainReg bus P E) (hQ : CarriesOn plainReg bus Q E)
    (hread : ∀ old, Triple P (i2cReadBytes bus 0x91 [old]) S E)
    (hstore : ∀ error data old, Triple (S (error, data)) (setStopVariable (data.headD old))
      (fun _ => After E Q error) E) :
    Triple P (vl53l0xDataInit bus) (fun _ => Q) E := by
  refine (h.read8 rfl).bind fun r => (check_rule r.1).bind fun _ => ?_
  refine (h.write _ _ rfl).bind fun error => (check_rule error).bind fun _ => ?_
  refine (h.write 0x88 0x00 rfl).bind fun error => (check_rule error).bind fun _ => ?_
  refine (h.writeRegs rfl).bind fun _ => (Triple.read fun _ hs => hs).bind fun s => ?_
  refine (hread _).bind fun (error, data) => ?_
  refine (hstore error data _).bind fun _ => (check_rule error).bind fun _ => ?_
  exact hQ.writeRegs rfl

end

namespace InitCarries

variable {δ : Type} {bus : Bus δ} {board : Board δ} {E : Vl53l0xStop → Vl53l0x δ → Prop}
  {P P₀ P₁ Q : Vl53l0x δ → Prop} {fuel : Nat} {idx : Vl53l0xIdx}

theorem assertConfig (h : InitCarries bus board P E) (config : IoConfig) (io : Io) :
    Triple P (assertConfig board config io) (fun _ => P) E :=
  (assertConfig_rule config io (h.raise .assert)).conseq (fun _ hs => hs) (fun _ _ hs => hs.2)
    fun _ _ hE => hE

theorem setSpads (h : InitCarries bus board P E) :
    Triple P (vl53l0xSetSpadsFromNvm bus fuel) (fun _ => P) E := by
  refine (h.toCarriesOn.getSpadInfo ⟨rfl, rfl⟩ fuel (h.readMap _)).bind fun info => ?_
  refine (h.writeRegs rfl).bind fun _ => ?_
  cases selectSpads info with
  | none => exact .raise (h.raise _)
  | some selection =>
    refine .cond (fun _ => .raise (h.raise _)) fun _ => ?_
    exact (h.writeMap _).bind check_rule

theorem configureInterrupt (h : InitCarries bus board P E) :
    Triple P (vl53l0xConfigureInterrupt bus) (fun _ => P) E := by
  refine (h.write _ _ rfl).bind fun error => (check_rule error).bind fun _ => ?_
  refine (h.read8 rfl).bind fun r => (check_rule r.1).bind fun _ => ?_
  refine (h.write _ _ rfl).bind fun error => (check_rule error).bind fun _ => ?_
  exact h.set rfl

theorem staticInit (h : InitCarries bus board P E) :
    Triple P (vl53l0xStaticInit bus fuel) (fun _ => P) E :=
  h.setSpads.bind fun _ => (h.writeRegs rfl).bind fun _ => h.configureInterrupt.bind fun _ =>
    h.set rfl

theorem singleRefCalibration (h : InitCarries bus board P E)
    (calibType : Vl53l0xCalibrationType) :
    Triple P (vl53l0xPerformSingleRefCalibration bus fuel calibType) (fun _ => P) E := by
  refine (h.write _ _ rfl).bind fun error => (check_rule error).bind fun _ => ?_
  refine (h.write _ _ rfl).bind fun error => (check_rule error).bind fun _ => ?_
  refine (h.poll rfl).bind fun _ => ?_
  refine (h.write _ _ rfl).bind fun error => (check_rule error).bind fun _ => ?_
  exact h.set rfl

theorem refCalibration (h : InitCarries bus board P E) :
    Triple P (vl53l0xPerformRefCalibration bus fuel) (fun _ => P) E :=
  (h.singleRefCalibration .vhv).bind fun _ => (h.singleRefCalibration .phase).bind fun _ =>
    h.set rfl

theorem configureFrontSensorInterrupt (h : InitCarries bus board P E) :
    Triple P (vl53l0xConfigureFrontSensorInterrupt board) (fun _ => P) E := by
  refine (h.assertConfig _ _).bind fun _ => (Triple.read fun _ hs => hs).bind fun s => ?_
  split
  · exact .raise (h.raise _)
  · exact .update (h.setInterrupts _)

/-- `P₀` once the driver talks to the sensor, `Q` once its stop variable is stored. -/
theorem initConfig (hQ : InitCarries bus board Q E)
    (haddress : Triple P (i2cSetSlaveAddress bus (vl53l0xCfgs idx)) (fun _ => P₀) E)
    (hdata : Triple P₀ (vl53l0xDataInit bus) (fun _ => Q) E) :
    Triple P (vl53l0xInitConfig bus board fuel idx) (fun _ => Q) E := by
  refine haddress.bind fun _ => hdata.bind fun _ => hQ.staticInit.bind fun _ => ?_
  refine hQ.refCalibration.bind fun _ => ?_
  exact .cond (fun _ => hQ.configureFrontSensorInterrupt) fun _ => .ret fun _ hs => hs

theorem i2cInit (h : InitCarries bus board P E)
    (haddress : Triple P (i2cSetSlaveAddress bus defaultSlaveAddress) (fun _ => Q) E)
    (hinitialized : ∀ s, Q s → Q { s with dev := board.setI2cInitialized s.dev }) :
    Triple P (i2cInit bus board) (fun _ => Q) E := by
  refine (Triple.read fun _ hs => hs).bind fun s => ?_
  refine (assert_rule fun _ => h.raise .assert).bind fun _ => .guarded fun _ => ?_
  refine (h.assertConfig _ _).bind fun _ => (h.assertConfig _ _).bind fun _ => ?_
  exact haddress.bind fun _ => .update hinitialized

end InitCarries

end Vl53l0x

end Nsumo.Drivers
