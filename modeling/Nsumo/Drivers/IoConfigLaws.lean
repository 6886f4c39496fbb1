import Nsumo.Drivers.IoConfig
import Nsumo.Drivers.IoLaws

namespace Nsumo.Drivers.PortRegs

open Common Lib Io

variable {io io' : Io}

theorem testPin_eq (io : Io) (regs : IoPort → Byte) :
    testPin io regs = (regs (ioPort io)).getLsbD (ioPinIdx io) := by
  rw [Bool.eq_iff_iff, testPin, bne_iff_ne]
  exact Mask.and_bit_ne_zero

theorem testPin_setPin (io io' : Io) (regs : IoPort → Byte) :
    testPin io' (setPin io regs) = (testPin io' regs || decide (place io' = place io)) := by
  rw [testPin_eq, testPin_eq]
  exact getLsbD_set io io' regs

theorem testPin_clearPin (io io' : Io) (regs : IoPort → Byte) :
    testPin io' (clearPin io regs) = (testPin io' regs && decide (place io' ≠ place io)) := by
  rw [testPin_eq, testPin_eq]
  exact getLsbD_clear io io' regs

theorem testPin_setPin_self (io : Io) (regs : IoPort → Byte) :
    testPin io (setPin io regs) = true := by
  rw [testPin_setPin, decide_eq_true rfl, Bool.or_true]

theorem testPin_clearPin_self (io : Io) (regs : IoPort → Byte) :
    testPin io (clearPin io regs) = false := by
  rw [testPin_clearPin, decide_eq_false (not_not_intro rfl), Bool.and_false]

theorem testPin_setPin_of_ne (hplace : place io' ≠ place io) (regs : IoPort → Byte) :
    testPin io' (setPin io regs) = testPin io' regs := by
  rw [testPin_setPin, decide_eq_false hplace, Bool.or_false]

theorem testPin_clearPin_of_ne (hplace : place io' ≠ place io) (regs : IoPort → Byte) :
    testPin io' (clearPin io regs) = testPin io' regs := by
  rw [testPin_clearPin, decide_eq_true hplace, Bool.and_true]

theorem getCurrentConfig_setSelect (select : IoSelect) (regs : PortRegs) :
    ioGetCurrentConfig io (ioSetSelect io select regs) =
      { ioGetCurrentConfig io regs with select } := by
  cases select with
  | gpio =>
    simp only [ioGetCurrentConfig, ioSetSelect, testPin_clearPin_self]
    rfl
  | alt1 =>
    simp only [ioGetCurrentConfig, ioSetSelect, testPin_setPin_self, testPin_clearPin_self]
    rfl
  | alt2 =>
    simp only [ioGetCurrentConfig, ioSetSelect, testPin_setPin_self, testPin_clearPin_self]
    rfl
  | alt3 =>
    simp only [ioGetCurrentConfig, ioSetSelect, testPin_setPin_self]
    rfl

theorem getCurrentConfig_setSelect_of_ne (hplace : place io' ≠ place io) (select : IoSelect)
    (regs : PortRegs) :
    ioGetCurrentConfig io' (ioSetSelect io select regs) = ioGetCurrentConfig io' regs := by
  cases select with
  | gpio =>
    simp only [ioGetCurrentConfig, ioSetSelect, testPin_clearPin_of_ne hplace]
    rfl
  | alt1 =>
    simp only [ioGetCurrentConfig, ioSetSelect, testPin_setPin_of_ne hplace,
      testPin_clearPin_of_ne hplace]
    rfl
  | alt2 =>
    simp only [ioGetCurrentConfig, ioSetSelect, testPin_setPin_of_ne hplace,
      testPin_clearPin_of_ne hplace]
    rfl
  | alt3 =>
    simp only [ioGetCurrentConfig, ioSetSelect, testPin_setPin_of_ne hplace]
    rfl

theorem getCurrentConfig_setDirection (dir : IoDir) (regs : PortRegs) :
    ioGetCurrentConfig io (ioSetDirection io dir regs) =
      { ioGetCurrentConfig io regs with dir } := by
  cases dir with
  | input =>
    simp only [ioGetCurrentConfig, ioSetDirection, testPin_clearPin_self]
    rfl
  | output =>
    simp only [ioGetCurrentConfig, ioSetDirection, testPin_setPin_self]
    rfl

theorem getCurrentConfig_setDirection_of_ne (hplace : place io' ≠ place io) (dir : IoDir)
    (regs : PortRegs) :
    ioGetCurrentConfig io' (ioSetDirection io dir regs) = ioGetCurrentConfig io' regs := by
  cases dir with
  | input =>
    simp only [ioGetCurrentConfig, ioSetDirection, testPin_clearPin_of_ne hplace]
    rfl
  | output =>
    simp only [ioGetCurrentConfig, ioSetDirection, testPin_setPin_of_ne hplace]
    rfl

theorem getCurrentConfig_setResistor (resistor : IoResistor) (regs : PortRegs) :
    ioGetCurrentConfig io (ioSetResistor io resistor regs) =
      { ioGetCurrentConfig io regs with resistor } := by
  cases resistor with
  | disabled =>
    simp only [ioGetCurrentConfig, ioSetResistor, testPin_clearPin_self]
    rfl
  | enabled =>
    simp only [ioGetCurrentConfig, ioSetResistor, testPin_setPin_self]
    rfl

theorem getCurrentConfig_setResistor_of_ne (hplace : place io' ≠ place io) (resistor : IoResistor)
    (regs : PortRegs) :
    ioGetCurrentConfig io' (ioSetResistor io resistor regs) = ioGetCurrentConfig io' regs := by
  cases resistor with
  | disabled =>
    simp only [ioGetCurrentConfig, ioSetResistor, testPin_clearPin_of_ne hplace]
    rfl
  | enabled =>
    simp only [ioGetCurrentConfig, ioSetResistor, testPin_setPin_of_ne hplace]
    rfl

theorem getCurrentConfig_setOut (out : IoOut) (regs : PortRegs) :
    ioGetCurrentConfig io (ioSetOut io out regs) =
      { ioGetCurrentConfig io regs with out } := by
  cases out with
  | low =>
    simp only [ioGetCurrentConfig, ioSetOut, testPin_clearPin_self]
    rfl
  | high =>
    simp only [ioGetCurrentConfig, ioSetOut, testPin_setPin_self]
    rfl

theorem getCurrentConfig_setOut_of_ne (hplace : place io' ≠ place io) (out : IoOut)
    (regs : PortRegs) :
    ioGetCurrentConfig io' (ioSetOut io out regs) = ioGetCurrentConfig io' regs := by
  cases out with
  | low =>
    simp only [ioGetCurrentConfig, ioSetOut, testPin_clearPin_of_ne hplace]
    rfl
  | high =>
    simp only [ioGetCurrentConfig, ioSetOut, testPin_setPin_of_ne hplace]
    rfl

theorem getCurrentConfig_configure (config : IoConfig) (regs : PortRegs) :
    ioGetCurrentConfig io (ioConfigure io config regs) = config := by
  rw [ioConfigure, getCurrentConfig_setResistor, getCurrentConfig_setOut,
    getCurrentConfig_setDirection, getCurrentConfig_setSelect]

theorem getCurrentConfig_configure_of_ne (hplace : place io' ≠ place io) (config : IoConfig)
    (regs : PortRegs) :
    ioGetCurrentConfig io' (ioConfigure io config regs) = ioGetCurrentConfig io' regs := by
  rw [ioConfigure, getCurrentConfig_setResistor_of_ne hplace, getCurrentConfig_setOut_of_ne hplace,
    getCurrentConfig_setDirection_of_ne hplace, getCurrentConfig_setSelect_of_ne hplace]

theorem getCurrentConfig_foldl_configure {ios : List Io} (hios : (ios.map place).Nodup)
    (hmem : io ∈ ios) (config : Io → IoConfig) (regs : PortRegs) :
    ioGetCurrentConfig io (ios.foldl (fun regs io => ioConfigure io (config io) regs) regs) =
      config io := by
  induction ios using List.reverseRecOn with
  | nil => cases hmem
  | append_singleton ios last ih =>
    rw [List.map_append, List.nodup_append] at hios
    obtain ⟨hios, -, hlast⟩ := hios
    rw [List.foldl_append, List.foldl_cons, List.foldl_nil]
    obtain hmem | hmem := List.mem_append.mp hmem
    · have hplace : place io ≠ place last :=
        hlast _ (List.mem_map_of_mem hmem) _ (List.mem_singleton_self _)
      rw [getCurrentConfig_configure_of_ne hplace, ih hios hmem]
    · rw [List.mem_singleton.mp hmem, getCurrentConfig_configure]

theorem getCurrentConfig_configureAll (h : io.toNat < 24) (regs : PortRegs) :
    ioGetCurrentConfig io (ioConfigureAll regs) = ioInitialConfigs io := by
  have hall : ioConfigureAll regs = ((List.range 24).map (BitVec.ofNat 8)).foldl
      (fun regs io => ioConfigure io (ioInitialConfigs io) regs) regs := by
    rw [List.foldl_map]
    rfl
  rw [hall]
  refine getCurrentConfig_foldl_configure (by decide) (List.mem_map.mpr ⟨io.toNat, ?_, ?_⟩) _ regs
  · exact List.mem_range.mpr h
  · exact BitVec.eq_of_toNat_eq (by simp)

theorem ioInit_run {port3In : Byte} (h : port3In.getLsbD 4 = true) (regs : PortRegs) :
    ∃ regs', ioInit port3In regs = .ok regs' ∧
      ∀ io : Io, io.toNat < 24 → ioGetCurrentConfig io regs' = ioInitialConfigs io := by
  have hdetect : ioDetectHwType port3In regs = (.nsumo, (ioDetectHwType port3In regs).2) :=
    Prod.ext (if_pos (bne_iff_ne.mpr (Mask.and_bit_ne_zero.mpr h))) rfl
  refine ⟨_, ?_, fun io hio => getCurrentConfig_configureAll hio (ioDetectHwType port3In regs).2⟩
  rw [ioInit, hdetect]
  rfl

end Nsumo.Drivers.PortRegs

namespace Nsumo.Drivers

theorem ioConfigCompare_iff {cfg1 cfg2 : IoConfig} :
    ioConfigCompare cfg1 cfg2 = true ↔ cfg1 = cfg2 := by
  cases cfg1
  cases cfg2
  simp only [ioConfigCompare, Bool.and_eq_true, beq_iff_eq, IoConfig.mk.injEq]
  tauto

end Nsumo.Drivers
