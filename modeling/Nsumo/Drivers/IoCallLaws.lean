import Nsumo.Drivers.IoConfigLaws
import Nsumo.Lib.Edits

namespace Nsumo.Drivers

open Common Lib Io PortRegs

inductive PinSetting : Type
  | configure (config : IoConfig)
  | setSelect (select : IoSelect)
  | setDirection (direction : IoDir)
  | setResistor (resistor : IoResistor)
  | setOut (out : IoOut)
  deriving DecidableEq, Repr

/-- The number of pins that `io_generic_e` has. -/
def pinCnt : HwType → Nat
  | .launchpad => 16
  | .nsumo => 24

abbrev Pin (hw : HwType) : Type := { io : Io // io.toNat < pinCnt hw }

structure PinCall (hw : HwType) : Type where
  pin : Pin hw
  setting : PinSetting

namespace PinSetting

def run (io : Io) (regs : PortRegs) : PinSetting → PortRegs
  | configure config => ioConfigure io config regs
  | setSelect select => ioSetSelect io select regs
  | setDirection direction => ioSetDirection io direction regs
  | setResistor resistor => ioSetResistor io resistor regs
  | setOut out => ioSetOut io out regs

def change (config : IoConfig) : PinSetting → IoConfig
  | configure config => config
  | setSelect select => { config with select }
  | setDirection dir => { config with dir }
  | setResistor resistor => { config with resistor }
  | setOut out => { config with out }

theorem getCurrentConfig_run (io : Io) (regs : PortRegs) (setting : PinSetting) :
    ioGetCurrentConfig io (setting.run io regs) = change (ioGetCurrentConfig io regs) setting := by
  cases setting with
  | configure config => exact getCurrentConfig_configure config regs
  | setSelect select => exact getCurrentConfig_setSelect select regs
  | setDirection direction => exact getCurrentConfig_setDirection direction regs
  | setResistor resistor => exact getCurrentConfig_setResistor resistor regs
  | setOut out => exact getCurrentConfig_setOut out regs

theorem getCurrentConfig_run_of_ne {io io' : Io} (hplace : place io' ≠ place io) (regs : PortRegs)
    (setting : PinSetting) :
    ioGetCurrentConfig io' (setting.run io regs) = ioGetCurrentConfig io' regs := by
  cases setting with
  | configure config => exact getCurrentConfig_configure_of_ne hplace config regs
  | setSelect select => exact getCurrentConfig_setSelect_of_ne hplace select regs
  | setDirection direction => exact getCurrentConfig_setDirection_of_ne hplace direction regs
  | setResistor resistor => exact getCurrentConfig_setResistor_of_ne hplace resistor regs
  | setOut out => exact getCurrentConfig_setOut_of_ne hplace out regs

def selectSet : PinSetting → Option IoSelect
  | configure config => some config.select
  | setSelect select => some select
  | _ => none

def resistorSet : PinSetting → Option IoResistor
  | configure config => some config.resistor
  | setResistor resistor => some resistor
  | _ => none

def dirSet : PinSetting → Option IoDir
  | configure config => some config.dir
  | setDirection direction => some direction
  | _ => none

def outSet : PinSetting → Option IoOut
  | configure config => some config.out
  | setOut out => some out
  | _ => none

def lastConfig (settings : List PinSetting) (config : IoConfig) : IoConfig where
  select := (Edits.lastSet selectSet settings).getD config.select
  resistor := (Edits.lastSet resistorSet settings).getD config.resistor
  dir := (Edits.lastSet dirSet settings).getD config.dir
  out := (Edits.lastSet outSet settings).getD config.out

theorem foldl_change (settings : List PinSetting) (config : IoConfig) :
    settings.foldl change config = lastConfig settings config := by
  have hselect : (settings.foldl change config).select = (lastConfig settings config).select :=
    Edits.field_foldl _ _ (fun _ setting => by cases setting <;> rfl) settings config
  have hresistor : (settings.foldl change config).resistor = (lastConfig settings config).resistor :=
    Edits.field_foldl _ _ (fun _ setting => by cases setting <;> rfl) settings config
  have hdir : (settings.foldl change config).dir = (lastConfig settings config).dir :=
    Edits.field_foldl _ _ (fun _ setting => by cases setting <;> rfl) settings config
  have hout : (settings.foldl change config).out = (lastConfig settings config).out :=
    Edits.field_foldl _ _ (fun _ setting => by cases setting <;> rfl) settings config
  exact congr (congr (congr (congrArg IoConfig.mk hselect) hresistor) hdir) hout

end PinSetting

namespace Pin

variable {hw : HwType}

theorem pinCnt_le (hw : HwType) : pinCnt hw ≤ pinCnt .nsumo := by
  cases hw <;> decide

def wide (p : Pin hw) : Pin .nsumo := ⟨p.1, Nat.lt_of_lt_of_le p.2 (pinCnt_le hw)⟩

theorem wide_inj {p p' : Pin hw} : p.wide = p'.wide ↔ p = p' := by
  rw [Subtype.ext_iff, Subtype.ext_iff]
  rfl

def ofPlace (pl : IoPort × Nat) : Io := BitVec.ofNat 8 (8 * pl.1.ctorIdx + pl.2)

theorem ofPlace_place : ∀ io : Io, io.toNat < pinCnt .nsumo → ofPlace (place io) = io := by
  decide +kernel

theorem place_inj {p p' : Pin .nsumo} : place p.1 = place p'.1 ↔ p = p' := by
  refine ⟨fun h => ?_, fun h => congrArg _ (congrArg _ h)⟩
  apply Subtype.ext
  rw [← ofPlace_place p.1 p.2, h, ofPlace_place p'.1 p'.2]

theorem exists_place (port : IoPort) {i : Nat} (hi : i < 8) :
    ∃ p : Pin .nsumo, place p.1 = (port, i) := by
  have hpin : ∀ i < 8,
      (ofPlace (port, i)).toNat < pinCnt .nsumo ∧ place (ofPlace (port, i)) = (port, i) := by
    cases port <;> decide
  exact ⟨⟨_, (hpin i hi).1⟩, (hpin i hi).2⟩

end Pin

namespace PortRegs

theorem ext_testPin {r r' : IoPort → Byte}
    (h : ∀ p : Pin .nsumo, testPin p.1 r = testPin p.1 r') : r = r' := by
  funext port
  apply BitVec.eq_of_getLsbD_eq
  intro i hi
  obtain ⟨p, hp⟩ := Pin.exists_place port hi
  obtain ⟨rfl, rfl⟩ := Prod.mk.inj hp
  have hbit := h p
  rwa [testPin_eq, testPin_eq] at hbit

theorem testPin_dir (io : Io) (regs : PortRegs) :
    testPin io regs.portDirRegs = decide ((ioGetCurrentConfig io regs).dir = .output) := by
  cases hpin : testPin io regs.portDirRegs <;> simp [ioGetCurrentConfig, hpin]

theorem testPin_ren (io : Io) (regs : PortRegs) :
    testPin io regs.portRenRegs = decide ((ioGetCurrentConfig io regs).resistor = .enabled) := by
  cases hpin : testPin io regs.portRenRegs <;> simp [ioGetCurrentConfig, hpin]

theorem testPin_out (io : Io) (regs : PortRegs) :
    testPin io regs.portOutRegs = decide ((ioGetCurrentConfig io regs).out = .high) := by
  cases hpin : testPin io regs.portOutRegs <;> simp [ioGetCurrentConfig, hpin]

theorem select_bits : ∀ sel1 sel2 : Bool,
    let select := IoSelect.ofNat ((if sel2 then 1 else 0) <<< 1 ||| if sel1 then 1 else 0)
    sel1 = decide (select = .alt1 ∨ select = .alt3) ∧
      sel2 = decide (select = .alt2 ∨ select = .alt3) := by
  decide

theorem testPin_sel1 (io : Io) (regs : PortRegs) :
    testPin io regs.portSel1Regs = decide ((ioGetCurrentConfig io regs).select = .alt1 ∨
      (ioGetCurrentConfig io regs).select = .alt3) :=
  (select_bits (testPin io regs.portSel1Regs) (testPin io regs.portSel2Regs)).1

theorem testPin_sel2 (io : Io) (regs : PortRegs) :
    testPin io regs.portSel2Regs = decide ((ioGetCurrentConfig io regs).select = .alt2 ∨
      (ioGetCurrentConfig io regs).select = .alt3) :=
  (select_bits (testPin io regs.portSel1Regs) (testPin io regs.portSel2Regs)).2

theorem ext_config {regs regs' : PortRegs}
    (h : ∀ p : Pin .nsumo, ioGetCurrentConfig p.1 regs = ioGetCurrentConfig p.1 regs') :
    regs = regs' := by
  have hdir : regs.portDirRegs = regs'.portDirRegs :=
    ext_testPin fun p => by rw [testPin_dir, h p, testPin_dir]
  have hren : regs.portRenRegs = regs'.portRenRegs :=
    ext_testPin fun p => by rw [testPin_ren, h p, testPin_ren]
  have hout : regs.portOutRegs = regs'.portOutRegs :=
    ext_testPin fun p => by rw [testPin_out, h p, testPin_out]
  have hsel1 : regs.portSel1Regs = regs'.portSel1Regs :=
    ext_testPin fun p => by rw [testPin_sel1, h p, testPin_sel1]
  have hsel2 : regs.portSel2Regs = regs'.portSel2Regs :=
    ext_testPin fun p => by rw [testPin_sel2, h p, testPin_sel2]
  exact congr (congr (congr (congr (congrArg PortRegs.mk hdir) hren) hout) hsel1) hsel2

end PortRegs

namespace PinCall

variable {hw : HwType}

def run (regs : PortRegs) (call : PinCall hw) : PortRegs := call.setting.run call.pin.1 regs

def configs (regs : PortRegs) (p : Pin .nsumo) : IoConfig := ioGetCurrentConfig p.1 regs

def key (call : PinCall hw) : Pin .nsumo := call.pin.wide

def change (config : IoConfig) (call : PinCall hw) : IoConfig := call.setting.change config

theorem key_inj {call : PinCall hw} {p : Pin hw} : call.key = p.wide ↔ call.pin = p :=
  Pin.wide_inj

theorem configs_run (regs : PortRegs) (call : PinCall hw) :
    configs (call.run regs) = Edits.apply key change (configs regs) call := by
  funext p
  by_cases hp : p = call.key
  · subst hp
    rw [Edits.apply, Function.update_self]
    exact PinSetting.getCurrentConfig_run _ _ _
  · rw [Edits.apply, Function.update_of_ne hp]
    exact PinSetting.getCurrentConfig_run_of_ne (mt Pin.place_inj.mp hp) _ _

theorem configs_foldl (calls : List (PinCall hw)) (regs : PortRegs) :
    configs (calls.foldl run regs) = calls.foldl (Edits.apply key change) (configs regs) :=
  (List.foldl_hom configs fun regs call => (configs_run regs call).symm).symm

theorem run_comm {call call' : PinCall hw} (h : call.pin ≠ call'.pin) (regs : PortRegs) :
    call'.run (call.run regs) = call.run (call'.run regs) := by
  have hkey : call.key ≠ call'.key := mt key_inj.mp h
  have hcomm : configs (call'.run (call.run regs)) = configs (call.run (call'.run regs)) := by
    rw [configs_run, configs_run, configs_run, configs_run]
    exact Edits.apply_comm hkey (configs regs)
  exact ext_config (congrFun hcomm)

theorem getCurrentConfig_calls (hw : HwType) (regs : PortRegs) :
    (∀ (calls : List (PinCall hw)) (p : Pin hw),
      ioGetCurrentConfig p.1 (calls.foldl run regs) =
        PinSetting.lastConfig ((calls.filter fun call => call.pin = p).map PinCall.setting)
          (ioGetCurrentConfig p.1 regs)) ∧
    ∀ call call' : PinCall hw, call.pin ≠ call'.pin →
      call'.run (call.run regs) = call.run (call'.run regs) := by
  refine ⟨fun calls p => ?_, fun call call' h => run_comm h regs⟩
  have hown : (calls.filter fun call => decide (call.key = p.wide)) =
      calls.filter fun call => decide (call.pin = p) := by
    simp only [key_inj]
  calc
    configs (calls.foldl run regs) p.wide
    _ = calls.foldl (Edits.apply key change) (configs regs) p.wide := by rw [configs_foldl]
    _ = (calls.filter fun call => call.key = p.wide).foldl change (configs regs p.wide) :=
      Edits.foldl_apply calls (configs regs) p.wide
    _ = (calls.filter fun call => call.pin = p).foldl change (configs regs p.wide) := by rw [hown]
    _ = ((calls.filter fun call => call.pin = p).map PinCall.setting).foldl PinSetting.change
        (configs regs p.wide) := by rw [List.foldl_map]; rfl
    _ = _ := PinSetting.foldl_change _ _

def ccCall (io : Io) (out : IoOut) (h : io.toNat < pinCnt .nsumo := by decide) :
    PinCall .nsumo where
  pin := ⟨io, h⟩
  setting := .setOut out

theorem run_comm_ccPins :
    (ccCall motorsLeftCc2 .low).run ((ccCall motorsLeftCc1 .high).run reset) =
      (ccCall motorsLeftCc1 .high).run ((ccCall motorsLeftCc2 .low).run reset) :=
  (getCurrentConfig_calls .nsumo reset).2 (ccCall motorsLeftCc1 .high) (ccCall motorsLeftCc2 .low)
    (by decide)

end PinCall

end Nsumo.Drivers
