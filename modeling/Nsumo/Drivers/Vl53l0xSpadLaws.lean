import Nsumo.Drivers.I2cDeviceLaws
import Nsumo.Drivers.Vl53l0xSpadRules
import Nsumo.Lib.Firsts
import Nsumo.Lib.Mask
import Nsumo.Lib.Triple

namespace Nsumo.Drivers

open Common Lib

namespace Vl53l0x

def spad (map : List Byte) (index : Nat) : Bool :=
  (map.getD (index / spadRowSize) 0).getLsbD (index % spadRowSize)

def isCandidate (good : List Byte) (offset index : Nat) : Bool := offset ≤ index && spad good index

structure Selected (good : List Byte) (count offset k : Nat) (s : SpadSelection) : Prop where
  rows : s.spadMap.length = spadMapRowCount
  spads (index : Nat) :
    spad s.spadMap index = decide (index ∈ firsts (isCandidate good offset) count k)
  enabled : s.spadsEnabledCount = (firsts (isCandidate good offset) count k).length

section

variable {good : List Byte} {count offset k row column : Nat} {s t : SpadSelection}

theorem Selected.full (h : Selected good count offset k s) (hfull : s.spadsEnabledCount = count)
    {k' : Nat} (hk : k ≤ k') : Selected good count offset k' s := by
  have hfirsts := firsts_full (h.enabled.symm.trans hfull) hk
  refine ⟨h.rows, ?_, ?_⟩
  · rw [hfirsts]
    exact h.spads
  · rw [hfirsts]
    exact h.enabled

theorem Selected.skip (h : Selected good count offset k s)
    (hk : isCandidate good offset k = false) : Selected good count offset (k + 1) s := by
  have hfirsts : firsts (isCandidate good offset) count (k + 1) =
      firsts (isCandidate good offset) count k := by
    rw [firsts_succ, hk]
    simp
  refine ⟨h.rows, ?_, ?_⟩
  · rw [hfirsts]
    exact h.spads
  · rw [hfirsts]
    exact h.enabled

theorem spad_modify {map : List Byte} (hrow : row < map.length) (hcolumn : column < spadRowSize)
    (index : Nat) :
    spad (map.modify row (· ||| 1#8 <<< column)) index =
      (spad map index || decide (index = row * spadRowSize + column)) := by
  rw [spad, spad, List.getD_eq_getElem?_getD, List.getD_eq_getElem?_getD, List.getElem?_modify]
  have hindex : index = row * spadRowSize + column ↔
      row = index / spadRowSize ∧ column = index % spadRowSize := by
    simp only [spadRowSize] at *
    omega
  by_cases hdiv : row = index / spadRowSize
  · subst hdiv
    rw [List.getElem?_eq_getElem hrow]
    simp only [Option.map_eq_map, Option.map_some, Option.getD_some, if_true]
    change BitVec.getLsbD (_ ||| Mask.bit column) _ = _
    rw [Mask.getLsbD_set]
    have hlt : column < 8 := hcolumn
    simp [hindex, hlt]
  · simp [hdiv, hindex]

theorem Selected.enable (h : Selected good count offset (row * spadRowSize + column) s)
    (hrow : row < spadMapRowCount) (hcolumn : column < spadRowSize)
    (hmore : s.spadsEnabledCount ≠ count)
    (hk : isCandidate good offset (row * spadRowSize + column) = true) :
    Selected good count offset (row * spadRowSize + column + 1)
      { spadMap := s.spadMap.modify row (· ||| 1#8 <<< column)
        spadsEnabledCount := s.spadsEnabledCount + 1 } := by
  have hlt : (firsts (isCandidate good offset) count (row * spadRowSize + column)).length < count :=
    Nat.lt_of_le_of_ne length_firsts_le (h.enabled ▸ hmore)
  have hfirsts : firsts (isCandidate good offset) count (row * spadRowSize + column + 1) =
      firsts (isCandidate good offset) count (row * spadRowSize + column) ++
        [row * spadRowSize + column] := by
    rw [firsts_succ, if_pos ⟨hk, hlt⟩]
  constructor
  · rw [List.length_modify, h.rows]
  · intro index
    rw [spad_modify (h.rows ▸ hrow) hcolumn, h.spads, hfirsts]
    simp
  · rw [hfirsts, List.length_append, h.enabled]
    rfl

theorem shifted_and_one {b : Byte} : (b >>> column) &&& 0x01 ≠ 0 ↔ b.getLsbD column = true := by
  change _ &&& Mask.bit 0 ≠ 0 ↔ _
  rw [Mask.and_bit_ne_zero, BitVec.getLsbD_ushiftRight, Nat.add_zero]

theorem spad_index (hcolumn : column < spadRowSize) :
    spad good (row * spadRowSize + column) = (good.getD row 0).getLsbD column := by
  simp only [spadRowSize] at *
  rw [spad, spadRowSize, show (row * 8 + column) / 8 = row by omega,
    show (row * 8 + column) % 8 = column by omega]

inductive RowEnd (good : List Byte) (count offset row : Nat) : Option SpadSelection → Prop
  | done {selection} : Selected good count offset (spadMaxCount - 1) selection →
      selection.spadsEnabledCount = count → RowEnd good count offset row (some selection)
  | next {selection} : row + 1 < spadMapRowCount →
      Selected good count offset ((row + 1) * spadRowSize) selection →
      RowEnd good count offset row (some selection)
  | stuck : (firsts (isCandidate good offset) count (spadMaxCount - 1)).length < count →
      RowEnd good count offset row none

theorem selectColumns_end (hrow : row < spadMapRowCount) {n : Nat} (hn : column + n = spadRowSize)
    (hmax : row * spadRowSize + column ≤ spadMaxCount)
    (hlast : row * spadRowSize + column = spadMaxCount →
      (firsts (isCandidate good offset) count (spadMaxCount - 1)).length < count)
    (h : Selected good count offset (row * spadRowSize + column) s) :
    RowEnd good count offset row
      (selectColumns good count offset row (List.range' column n) s) := by
  induction n generalizing column s with
  | zero =>
    rw [Nat.add_zero] at hn
    rw [hn, ← Nat.succ_mul] at h
    refine .next ?_ h
    simp only [hn, spadRowSize, spadMaxCount, spadMapRowCount] at *
    omega
  | succ n ih =>
    have hcolumn : column < spadRowSize := by omega
    have hnext : column + 1 + n = spadRowSize := by omega
    rw [List.range'_succ, selectColumns]
    split
    case isTrue hend => exact .stuck (hlast (Nat.le_antisymm hmax hend))
    case isFalse hend =>
      have hlt := Nat.lt_of_not_le hend
      split
      case isTrue hfull => exact .done (h.full hfull (Nat.le_sub_one_of_lt hlt)) hfull
      case isFalse hmore =>
        have hlast' : row * spadRowSize + (column + 1) = spadMaxCount →
            (firsts (isCandidate good offset) count (spadMaxCount - 1)).length < count := by
          intro hindex
          rw [← hindex]
          exact Nat.lt_of_le_of_ne length_firsts_le (h.enabled ▸ hmore)
        split
        case isTrue hoffset => exact ih hnext hlt hlast' (h.skip (by simp [isCandidate, hoffset]))
        case isFalse hoffset =>
          split
          case isTrue hgood =>
            refine ih hnext hlt hlast' (h.enable hrow hcolumn hmore ?_)
            rw [shifted_and_one, ← spad_index hcolumn] at hgood
            simp [isCandidate, hgood, Nat.le_of_not_lt hoffset]
          case isFalse hgood =>
            refine ih hnext hlt hlast' (h.skip ?_)
            rw [shifted_and_one, ← spad_index hcolumn, Bool.not_eq_true] at hgood
            simp [isCandidate, hgood]

inductive SelectEnd (good : List Byte) (count offset : Nat) : Option SpadSelection → Prop
  | done {selection} : Selected good count offset (spadMaxCount - 1) selection →
      selection.spadsEnabledCount = count → SelectEnd good count offset (some selection)
  | stuck : (firsts (isCandidate good offset) count (spadMaxCount - 1)).length < count →
      SelectEnd good count offset none

theorem selectRows_end {n : Nat} (hpos : 0 < n) (hn : row + n = spadMapRowCount)
    (h : Selected good count offset (row * spadRowSize) s) :
    SelectEnd good count offset (selectRows good count offset (List.range' row n) s) := by
  induction n generalizing row s with
  | zero => cases hpos
  | succ n ih =>
    have hrow : row < spadMapRowCount := by omega
    have hbelow : row * spadRowSize < spadMaxCount := by
      simp only [spadMapRowCount, spadRowSize, spadMaxCount] at *
      omega
    have hcolumns := selectColumns_end hrow (Nat.zero_add _) hbelow.le
      (fun hindex => absurd hindex hbelow.ne) h
    rw [← List.range_eq_range'] at hcolumns
    rw [List.range'_succ, selectRows]
    generalize selectColumns good count offset row (List.range spadRowSize) s = columns at *
    cases hcolumns with
    | stuck hstuck => exact .stuck hstuck
    | done hselected hfull =>
      dsimp only
      rw [if_pos hfull]
      exact .done hselected hfull
    | next hnext hselected =>
      dsimp only
      split
      case isTrue hfull =>
        refine .done (hselected.full hfull ?_) hfull
        simp only [spadMapRowCount, spadRowSize, spadMaxCount] at *
        omega
      case isFalse => exact ih (by omega) (by omega) hselected

end

section

variable {d : SpadDevice} {reg : Byte} {data : List Byte} {s t : I2c} {i : I2cDevice}

theorem bus_read_eq (hok : (d.outcomes 0).error = none) (hdata : 0 < data.length)
    (hlength : s.data.length = data.length) (hreg : i.reg = d.value (d.outcomes 0).values)
    (hrun : I2c.i2cRead [reg] data.length { s with trace := [] } = .ok () t)
    (hanswers : i.Answers t.trace) : SpadDevice.bus.read reg data d = (none, t.data, d.next) := by
  rw [I2c.i2cRead_load hdata hlength hrun hanswers, hreg]
  simp only [SpadDevice.bus, hok]

theorem bus_write_eq (hok : (d.outcomes 0).error = none) (hdata : 0 < data.length)
    (hreg : i.reg = d.registers)
    (hrun : I2c.i2cWrite [reg] data { s with trace := [] } = .ok () t) :
    SpadDevice.bus.write reg data d =
      (none, { d.next with registers := (t.trace.foldl I2cDevice.see i).reg }) := by
  rw [I2c.i2cWrite_store hdata hrun, hreg]
  simp only [SpadDevice.bus, hok]

end

def Holds (enables : List Byte) (nvm : BitVec 32) (s : Vl53l0x SpadDevice) : Prop :=
  s.dev.spadEnables = enables ∧ s.dev.nvm = nvm

theorem spadEnables_store {d : SpadDevice} {reg data : Byte}
    (hreg : SpadDevice.isSpadEnable reg = false) :
    SpadDevice.spadEnables { d with registers := Registers.store reg [data] d.registers } =
      d.spadEnables := by
  have henable : ∀ k < spadMapRowCount, SpadDevice.isSpadEnable
      (regGlobalConfigSpadEnablesRef0 + BitVec.ofNat 8 k) = true := by decide
  apply Registers.load_update_of_ne
  rintro k hk rfl
  rw [henable k hk] at hreg
  cases hreg

theorem write_holds {enables : List Byte} {nvm : BitVec 32} {reg data : Byte}
    (hreg : SpadDevice.isSpadEnable reg = false) :
    Triple (Holds enables nvm) (i2cWriteAddr8Data8 SpadDevice.bus reg data)
      (fun _ => Holds enables nvm) fun _ _ => True := by
  intro s hs
  change Holds enables nvm { s with dev := (SpadDevice.bus.write reg [data] s.dev).2 }
  dsimp only [SpadDevice.bus]
  cases (s.dev.outcomes 0).error with
  | some error => exact hs
  | none => exact ⟨(spadEnables_store hreg).trans hs.1, hs.2⟩

theorem readBytes_holds {enables : List Byte} {nvm : BitVec 32} (reg : Byte) (data : List Byte) :
    Triple (Holds enables nvm) (i2cReadBytes SpadDevice.bus reg data)
      (fun _ => Holds enables nvm) fun _ _ => True := by
  intro s hs
  change Holds enables nvm { s with dev := (SpadDevice.bus.read reg data s.dev).2.2 }
  dsimp only [SpadDevice.bus]
  cases (s.dev.outcomes 0).error <;> exact hs

theorem holds_carries (enables : List Byte) (nvm : BitVec 32) :
    Carries SpadDevice.bus (Holds enables nvm) fun _ _ => True where
  fuel _ _ := trivial
  write _ _ hreg := (write_holds hreg).conseq (fun _ hs => hs)
    (fun error _ hs => .intro hs trivial error) fun _ _ h => h
  read reg data _ := (readBytes_holds reg data).conseq (fun _ hs => hs)
    (fun r _ hs => .intro hs trivial r.1) fun _ _ h => h

theorem nvm_bytes (nvm : BitVec 32) :
    nvm.extractLsb' 24 8 ++ nvm.extractLsb' 16 8 ++ nvm.extractLsb' 8 8 ++ nvm.extractLsb' 0 8 =
      nvm := by
  apply BitVec.eq_of_getLsbD_eq
  intro i hi
  simp only [BitVec.getLsbD_append, BitVec.getLsbD_extractLsb']
  split_ifs <;> rw [decide_eq_true (by omega), Bool.true_and] <;> congr 1 <;> omega

theorem readBytes_load {enables : List Byte} {nvm : BitVec 32} (reg : Byte) (data : List Byte) :
    Triple (Holds enables nvm) (i2cReadBytes SpadDevice.bus reg data)
      (fun r s => Holds enables nvm s ∧ (r.1 = none → ∃ values,
        r.2 = (Registers.load (s.dev.value values) reg data.length).reverse)) fun _ _ => True := by
  intro s hs
  refine ⟨readBytes_holds reg data s hs, ?_⟩
  change (SpadDevice.bus.read reg data s.dev).1 = none → ∃ values,
    (SpadDevice.bus.read reg data s.dev).2.1 =
      (Registers.load ((SpadDevice.bus.read reg data s.dev).2.2.value values) reg _).reverse
  dsimp only [SpadDevice.bus]
  cases (s.dev.outcomes 0).error with
  | some error => exact nofun
  | none => exact fun _ => ⟨(s.dev.outcomes 0).values, rfl⟩

theorem readNvm_triple {enables : List Byte} {nvm : BitVec 32} :
    Triple (Holds enables nvm) (i2cReadAddr8Data32 SpadDevice.bus 0x90)
      (fun r => After (fun _ _ => True) (fun s => r.2 = nvm ∧ Holds enables nvm s) r.1)
      fun _ _ => True := by
  refine (readBytes_load 0x90 [0, 0, 0, 0]).bind fun (error, data) => .ret fun s hs => ?_
  cases error with
  | some error => exact trivial
  | none =>
    obtain ⟨values, hdata⟩ := hs.2 rfl
    refine ⟨?_, hs.1⟩
    dsimp only at hdata ⊢
    rw [hdata]
    refine Eq.trans ?_ (nvm_bytes nvm)
    rw [← hs.1.2]
    rfl

theorem readMap_triple {enables : List Byte} {nvm : BitVec 32} :
    Triple (Holds enables nvm)
      (i2cReadBytes SpadDevice.bus regGlobalConfigSpadEnablesRef0
        (List.replicate spadMapRowCount 0))
      (fun r => After (fun _ _ => True) (fun s => r.2 = enables.reverse ∧ Holds enables nvm s) r.1)
      fun _ _ => True := by
  refine (readBytes_load _ _).conseq (fun _ hs => hs) (fun (error, data) s hs => ?_)
    fun _ _ h => h
  cases error with
  | some error => exact trivial
  | none =>
    obtain ⟨values, hdata⟩ := hs.2 rfl
    refine ⟨?_, hs.1⟩
    rw [hdata, ← hs.1.1]
    rfl

def spadInfo (enables : List Byte) (nvm : BitVec 32) : SpadInfo where
  spadCount := ((nvm >>> 8) &&& 0x7F).toNat
  spadType := ((nvm >>> 15) &&& 0x01).toNat
  goodSpadMap := enables.reverse

theorem getSpadInfo_triple {enables : List Byte} {nvm : BitVec 32} (fuel : Nat) :
    Triple (Holds enables nvm) (vl53l0xGetSpadInfoFromNvm SpadDevice.bus fuel)
      (fun info s => Holds enables nvm s ∧ info = spadInfo enables nvm) fun _ _ => True := by
  have h := holds_carries enables nvm
  refine getSpadInfo_rule (K := (· = nvm)) h.nvmRegs h.updateStrobe
    (h.write _ _ rfl) (h.readStrobe fuel) readNvm_triple fun data hdata => ?_
  refine readMap_triple.conseq (fun _ hs => hs) (fun r s hs => ?_) fun _ _ h => h
  obtain ⟨error, goodSpadMap⟩ := r
  cases error with
  | some error => exact trivial
  | none =>
    obtain ⟨hmap, hs⟩ := hs
    refine ⟨hs, ?_⟩
    rw [hmap, hdata, spadInfo]

def spadOffset (spadType : Nat) : Nat :=
  if spadType = spadTypeAperture then spadApertureStartIndex else 0

def chosen (good : List Byte) (count spadType : Nat) : List Nat :=
  firsts (isCandidate good (spadOffset spadType)) count (spadMapRowCount * spadRowSize)

theorem selected_zero {good : List Byte} {count offset : Nat} :
    Selected good count offset (0 * spadRowSize)
      { spadMap := List.replicate spadMapRowCount 0, spadsEnabledCount := 0 } := by
  rw [Nat.zero_mul]
  refine ⟨rfl, fun index => ?_, by rw [firsts_zero]; rfl⟩
  rw [spad, List.getD_eq_getElem?_getD, List.getElem?_replicate]
  split <;> simp

theorem selectSpads_end (info : SpadInfo) :
    SelectEnd info.goodSpadMap info.spadCount (spadOffset info.spadType) (selectSpads info) := by
  rw [selectSpads, List.range_eq_range']
  exact selectRows_end (by decide) (Nat.zero_add _) selected_zero

theorem selectSpads_spec {info : SpadInfo} {s : SpadSelection} (h : selectSpads info = some s) :
    Selected info.goodSpadMap info.spadCount (spadOffset info.spadType)
      (spadMapRowCount * spadRowSize) s := by
  have hend := selectSpads_end info
  rw [h] at hend
  cases hend with
  | done hselected hfull => exact hselected.full hfull (by decide)

theorem writeMap_triple {P : Vl53l0x SpadDevice → Prop} {data : List Byte}
    (hdata : data.length = spadMapRowCount) :
    Triple P (i2cWriteBytes SpadDevice.bus regGlobalConfigSpadEnablesRef0 data)
      (fun error s => error = none → s.dev.spadEnables = data) fun _ _ => True := by
  intro s _
  change (SpadDevice.bus.write _ data s.dev).1 = none →
    (SpadDevice.bus.write _ data s.dev).2.spadEnables = data
  dsimp only [SpadDevice.bus]
  cases (s.dev.outcomes 0).error with
  | some error => exact nofun
  | none =>
    intro _
    rw [SpadDevice.spadEnables, ← hdata]
    exact Registers.load_store (hdata ▸ by decide)

theorem setSpads_triple {enables : List Byte} {nvm : BitVec 32} (fuel : Nat) :
    Triple (Holds enables nvm) (vl53l0xSetSpadsFromNvm SpadDevice.bus fuel)
      (fun _ t => ∃ s : SpadSelection, t.dev.spadEnables = s.spadMap ∧
        s.spadsEnabledCount = (spadInfo enables nvm).spadCount ∧
        selectSpads (spadInfo enables nvm) = some s) fun _ _ => True := by
  refine (getSpadInfo_triple fuel).bind fun info => ?_
  refine Triple.strengthen (P := fun s => info = spadInfo enables nvm ∧ Holds enables nvm s)
    (.guarded ?_) fun _ h => h.symm
  rintro rfl
  refine ((holds_carries enables nvm).writeRegs rfl).bind fun _ => ?_
  cases hselect : selectSpads (spadInfo enables nvm) with
  | none => exact .raise fun _ _ => trivial
  | some selection =>
    refine .cond (fun _ => .raise fun _ _ => trivial) fun hcount => ?_
    have hrows := (selectSpads_spec hselect).rows
    refine (writeMap_triple hrows).bind fun error => ?_
    cases error with
    | some error => exact .raise fun _ _ => trivial
    | none => exact .ret fun s hs => ⟨selection, hs rfl, not_not.mp hcount, rfl⟩

structure SpadsSound (before after : SpadDevice) : Prop where
  good (index : Nat) :
    spad after.spadEnables index = true → spad before.spadEnables index = true
  count : (List.range (spadMapRowCount * spadRowSize)).countP (spad after.spadEnables) =
    before.spadCount

/-- A successful call enables good SPADs if and only if those chosen from the map with its rows in
reverse order are good. -/
theorem setSpads_sound_iff {fuel : Nat} {s t : Vl53l0x SpadDevice}
    (h : vl53l0xSetSpadsFromNvm SpadDevice.bus fuel s = .ok () t) :
    SpadsSound s.dev t.dev ↔
      ∀ index ∈ chosen s.dev.spadEnables.reverse s.dev.spadCount s.dev.spadType,
        spad s.dev.spadEnables index = true := by
  obtain ⟨selection, henables, hcount, hselect⟩ := (setSpads_triple fuel).ok ⟨rfl, rfl⟩ h
  have hspec := selectSpads_spec hselect
  have hspad (index : Nat) : spad t.dev.spadEnables index =
      decide (index ∈ chosen s.dev.spadEnables.reverse s.dev.spadCount s.dev.spadType) := by
    rw [henables]
    exact hspec.spads index
  constructor
  · intro hsound index hindex
    exact hsound.good index (by rw [hspad, decide_eq_true hindex])
  · intro hgood
    refine ⟨fun index hindex => hgood index (by simpa [hspad] using hindex), ?_⟩
    have hlength := hspec.enabled.symm.trans hcount
    have hfun : spad t.dev.spadEnables = fun index =>
        decide (index ∈ chosen s.dev.spadEnables.reverse s.dev.spadCount s.dev.spadType) :=
      funext hspad
    rw [hfun]
    exact (countP_mem_firsts (Nat.le_refl _)).trans hlength

def oneSpad : Vl53l0x SpadDevice where
  stopVariable := 0
  statusMultiple := .notStarted
  initialized := false
  latestRanges _ := vl53l0xOutOfRange
  dev := {
    registers := fun reg => if reg = 0xB0 then 0xFF else 0
    nvm := 0x00000100
    outcomes := fun _ => { error := none, values := fun _ => 0x01 } }

theorem oneSpad_enables :
    (match vl53l0xSetSpadsFromNvm SpadDevice.bus 1 oneSpad with
      | .ok _ t => t.dev.spadEnables
      | .error _ _ => []) = [0, 0, 0, 0, 0, 1] := by
  decide +kernel

theorem oneSpad_ok : ∃ t, vl53l0xSetSpadsFromNvm SpadDevice.bus 1 oneSpad = .ok () t ∧
    t.dev.spadEnables = [0, 0, 0, 0, 0, 1] := by
  have henables := oneSpad_enables
  cases hrun : vl53l0xSetSpadsFromNvm SpadDevice.bus 1 oneSpad with
  | ok _ t =>
    rw [hrun] at henables
    exact ⟨t, rfl, henables⟩
  | error e t =>
    rw [hrun] at henables
    cases henables

theorem setSpads_sound_iff_oneSpad :
    ∃ t : Vl53l0x SpadDevice, SpadsSound oneSpad.dev t.dev ↔
      ∀ index ∈ chosen oneSpad.dev.spadEnables.reverse 1 0,
        spad oneSpad.dev.spadEnables index = true := by
  obtain ⟨t, hrun, -⟩ := oneSpad_ok
  exact ⟨t, setSpads_sound_iff hrun⟩

theorem setSpads_unsound_oneSpad :
    ∃ t, vl53l0xSetSpadsFromNvm SpadDevice.bus 1 oneSpad = .ok () t ∧
      ¬SpadsSound oneSpad.dev t.dev := by
  obtain ⟨t, hrun, henables⟩ := oneSpad_ok
  refine ⟨t, hrun, fun hsound => ?_⟩
  have hgood := hsound.good 40 (by rw [henables]; decide)
  exact absurd hgood (by decide)

end Vl53l0x

end Nsumo.Drivers
