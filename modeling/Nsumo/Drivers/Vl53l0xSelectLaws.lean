import Nsumo.Drivers.Vl53l0xLoggedLaws
import Nsumo.Drivers.Vl53l0xSpadLaws

namespace Nsumo.Drivers

open Common Lib

namespace Vl53l0x

def BusEvent.spadWrite : BusEvent → Option (Byte × List Byte)
  | .written reg data _ => if SpadDevice.isSpadEnable reg then some (reg, data) else none
  | .elapsed _ | .read _ _ => none

def spadWrites (log : List BusEvent) : List (Byte × List Byte) := log.filterMap BusEvent.spadWrite

def Wrote {δ : Type} (writes : List (Byte × List Byte)) (s : Vl53l0x (Logged δ)) : Prop :=
  spadWrites s.dev.log = writes

structure Succeeds {δ : Type} (bus : Bus δ) : Prop where
  write (reg : Byte) (data : List Byte) (d : δ) : (bus.write reg data d).1 = none
  read (reg : Byte) (data : List Byte) (d : δ) : (bus.read reg data d).1 = none

section

variable {δ : Type} {bus : Bus δ} {reg data : Byte} {fuel : Nat} {info : SpadInfo}
  {s t : Vl53l0x (Logged δ)} {writes : List (Byte × List Byte)}

theorem write_wrote (hreg : SpadDevice.isSpadEnable reg = false) :
    Triple (Wrote writes) (i2cWriteAddr8Data8 (Logged.bus bus) reg data)
      (fun error s => Wrote writes s ∧ ∃ d, error = (bus.write reg [data] d).1)
      fun _ _ => False := by
  intro s hs
  obtain ⟨b, d, t, ht, hlog, -⟩ := write_run bus reg data s
  rw [ht]
  refine ⟨?_, d, rfl⟩
  rw [Wrote, hlog, spadWrites, List.filterMap_append, ← spadWrites, hs]
  simp [BusEvent.spadWrite, hreg]

theorem read_wrote (reg : Byte) (data : List Byte) :
    Triple (Wrote writes) (i2cReadBytes (Logged.bus bus) reg data) (fun _ => Wrote writes)
      fun _ _ => False := by
  intro s hs
  obtain ⟨b, d, t, ht, hlog, -⟩ := readBytes_run bus reg data s
  rw [ht]
  change Wrote writes t
  rw [Wrote, hlog, spadWrites, List.filterMap_append, ← spadWrites, hs]
  simp [BusEvent.spadWrite]

theorem wrote_carries (writes : List (Byte × List Byte)) :
    Carries (Logged.bus bus) (Wrote writes) fun _ => Wrote writes where
  fuel _ hs := hs
  write _ _ hreg := (write_wrote hreg).conseq (fun _ hs => hs)
    (fun error _ hs => .intro hs.1 hs.1 error) fun _ _ h => h.elim
  read reg data _ := (read_wrote reg data).conseq (fun _ hs => hs)
    (fun r _ hs => .intro hs hs r.1) fun _ _ h => h.elim

theorem getSpadInfo_wrote (fuel : Nat) :
    Triple (Wrote writes) (vl53l0xGetSpadInfoFromNvm (Logged.bus bus) fuel)
      (fun _ => Wrote writes) fun _ => Wrote writes := by
  refine (wrote_carries writes).getSpadInfo fuel ?_
  refine (read_wrote _ _).conseq (fun _ hs => hs) (fun r s hs => ?_) fun _ _ h => h.elim
  cases r.1 <;> exact hs

structure SpadsSelected (info : SpadInfo) (data : List Byte) : Prop where
  rows : data.length = spadMapRowCount
  first (index : Nat) : spad data index = true ↔
    index ∈ chosen info.goodSpadMap info.spadCount info.spadType
  good (index : Nat) : spad data index = true → spad info.goodSpadMap index = true
  count : (List.range (spadMapRowCount * spadRowSize)).countP (spad data) = info.spadCount
  offset (index : Nat) : spad data index = true → spadOffset info.spadType ≤ index
  max (index : Nat) : spad data index = true → index < spadMaxCount

theorem selectSpads_selected {selection : SpadSelection}
    (h : selectSpads info = some selection) :
    SpadsSelected info selection.spadMap ∧ selection.spadsEnabledCount = info.spadCount := by
  have hend := selectSpads_end info
  rw [h] at hend
  cases hend with
  | done hselected hfull =>
    have hall : Selected info.goodSpadMap info.spadCount (spadOffset info.spadType)
        (spadMapRowCount * spadRowSize) selection := hselected.full hfull (by decide)
    have hcandidate (index : Nat) (hindex : spad selection.spadMap index = true) :
        index < spadMaxCount - 1 ∧
          isCandidate info.goodSpadMap (spadOffset info.spadType) index = true := by
      rw [hselected.spads, decide_eq_true_eq] at hindex
      exact of_mem_firsts hindex
    refine ⟨⟨hall.rows, fun index => ?_, fun index hindex => ?_, ?_, fun index hindex => ?_,
      fun index hindex => ?_⟩, hfull⟩
    · rw [hall.spads, decide_eq_true_eq]
      rfl
    · have hspad := (hcandidate index hindex).2
      rw [isCandidate, Bool.and_eq_true] at hspad
      exact hspad.2
    · have hspads := funext hall.spads
      rw [hspads, countP_mem_firsts (Nat.le_refl _), ← hall.enabled, hfull]
    · have hspad := (hcandidate index hindex).2
      rw [isCandidate, Bool.and_eq_true, decide_eq_true_eq] at hspad
      exact hspad.1
    · have hlt := (hcandidate index hindex).1
      simp only [spadMaxCount] at *
      omega

def MapsSelected (bus : Bus δ) (fuel : Nat) (s : Vl53l0x δ) (u : Vl53l0x (Logged δ)) : Prop :=
  ∀ write ∈ spadWrites u.dev.log,
    ∃ info t, vl53l0xGetSpadInfoFromNvm (Logged.bus bus) fuel (logged s) = .ok info t ∧
      write.1 = regGlobalConfigSpadEnablesRef0 ∧ SpadsSelected info write.2

theorem Wrote.mapsSelected {s : Vl53l0x δ} {u : Vl53l0x (Logged δ)} (hu : Wrote [] u) :
    MapsSelected bus fuel s u := by
  intro write hwrite
  rw [hu] at hwrite
  cases hwrite

theorem setSpads_mapsSelected (bus : Bus δ) (fuel : Nat) (s : Vl53l0x δ) :
    Triple (fun u => u = logged s ∧ Wrote [] u) (vl53l0xSetSpadsFromNvm (Logged.bus bus) fuel)
      (fun _ => MapsSelected bus fuel s) fun _ => MapsSelected bus fuel s := by
  refine Triple.bind (((getSpadInfo_wrote fuel).trace).conseq (fun _ hs => hs)
    (fun _ _ h => h) fun _ _ hu => hu.mapsSelected) fun info => ?_
  refine Triple.strengthen (P := fun u => (∃ t,
    vl53l0xGetSpadInfoFromNvm (Logged.bus bus) fuel (logged s) = .ok info t) ∧ Wrote [] u)
    (.guarded fun ⟨t, ht⟩ => ?_) ?_
  · refine Triple.bind (((wrote_carries []).writeRegs rfl).conseq (fun _ hs => hs)
      (fun _ _ h => h) fun _ _ hu => hu.mapsSelected) fun _ => ?_
    cases hselect : selectSpads info with
    | none => exact .raise fun _ hu => hu.mapsSelected
    | some selection =>
      refine .cond (fun _ => .raise fun _ hu => hu.mapsSelected) fun _ => ?_
      refine Triple.bind (Q := fun _ => MapsSelected bus fuel s) ?_ fun error => ?_
      · intro u hu
        obtain ⟨b, d, v, hv, hlog, -⟩ :=
          writeBytes_run bus regGlobalConfigSpadEnablesRef0 selection.spadMap u
        rw [hv]
        intro write hwrite
        rw [hlog, spadWrites, List.filterMap_append, ← spadWrites, hu] at hwrite
        have heq : write = (regGlobalConfigSpadEnablesRef0, selection.spadMap) :=
          List.mem_singleton.mp hwrite
        rw [heq]
        exact ⟨info, t, ht, rfl, (selectSpads_selected hselect).1⟩
      · cases error with
        | none => exact .ret fun _ h => h
        | some error => exact .raise fun _ h => h
  · rintro u ⟨⟨_, rfl, hrun⟩, hu⟩
    exact ⟨⟨u, hrun⟩, hu⟩

theorem setSpads_writes_selected (bus : Bus δ) (fuel : Nat) (s : Vl53l0x δ) :
    MapsSelected bus fuel s
      (stateAfter (vl53l0xSetSpadsFromNvm (Logged.bus bus) fuel (logged s))) :=
  (setSpads_mapsSelected bus fuel s).after ⟨rfl, rfl⟩

def candidates (info : SpadInfo) (k : Nat) : Nat :=
  (List.range k).countP (isCandidate info.goodSpadMap (spadOffset info.spadType))

theorem candidates_succ (info : SpadInfo) (k : Nat) : candidates info (k + 1) =
    candidates info k + if isCandidate info.goodSpadMap (spadOffset info.spadType) k then 1 else 0 := by
  rw [candidates, List.range_succ, List.countP_append, List.countP_singleton, candidates]

theorem selectSpads_some_iff (info : SpadInfo) : (∃ selection, selectSpads info = some selection) ↔
    info.spadCount ≤ candidates info (spadMaxCount - 1) := by
  have hend := selectSpads_end info
  generalize selectSpads info = r at hend
  cases hend with
  | @done selection hselected hfull =>
    have hlength := hselected.enabled.symm.trans hfull
    rw [length_firsts] at hlength
    exact iff_of_true ⟨selection, rfl⟩ (hlength ▸ Nat.min_le_right _ _)
  | stuck hstuck =>
    rw [length_firsts] at hstuck
    refine iff_of_false (by rintro ⟨_, ⟨⟩⟩) fun hle => ?_
    rw [← candidates, Nat.min_eq_left hle] at hstuck
    exact Nat.lt_irrefl _ hstuck

theorem writeRegs_wrote (hbus : Succeeds bus) {regs : List (Byte × Byte)}
    (hregs : regs.all (fun r => !SpadDevice.isSpadEnable r.1) = true) :
    Triple (Wrote writes) (vl53l0xWrite8regs (Logged.bus bus) regs) (fun _ => Wrote writes)
      fun _ _ => False := by
  refine writeRegs_rule fun r hr => ?_
  have hreg := List.all_eq_true.mp hregs r hr
  rw [Bool.not_eq_true'] at hreg
  refine (write_wrote hreg).conseq (fun _ hs => hs) (fun error s hs => ?_) fun _ _ h => h
  obtain ⟨hwrote, d, herror⟩ := hs
  rw [herror, hbus.write]
  exact hwrote

theorem spadRegs_run (hbus : Succeeds bus)
    (hinfo : vl53l0xGetSpadInfoFromNvm (Logged.bus bus) fuel s = .ok info t) :
    ∃ u, vl53l0xWrite8regs (Logged.bus bus) spadRegs t = .ok () u ∧
      Wrote (spadWrites s.dev.log) u := by
  have hread : Wrote (spadWrites s.dev.log) t := (getSpadInfo_wrote fuel).ok rfl hinfo
  have hwrite : Triple (Wrote (spadWrites s.dev.log)) (vl53l0xWrite8regs (Logged.bus bus) spadRegs)
      (fun _ => Wrote (spadWrites s.dev.log)) fun _ _ => False := writeRegs_wrote hbus rfl
  obtain ⟨⟨⟩, u, hrun, hu⟩ := hwrite.total hread
  exact ⟨u, hrun, hu⟩

theorem setSpads_ok (hbus : Succeeds bus)
    (hinfo : vl53l0xGetSpadInfoFromNvm (Logged.bus bus) fuel s = .ok info t)
    {selection : SpadSelection} (hselect : selectSpads info = some selection) :
    ∃ u, vl53l0xSetSpadsFromNvm (Logged.bus bus) fuel s = .ok () u := by
  obtain ⟨u, hrun, -⟩ := spadRegs_run hbus hinfo
  obtain ⟨b, d, v, hv, -⟩ := writeBytes_run bus regGlobalConfigSpadEnablesRef0 selection.spadMap u
  rw [hbus.write] at hv
  refine ⟨v, (bind_run hinfo).trans ((bind_run hrun).trans ?_)⟩
  simp only [hselect]
  rw [if_neg (not_not.mpr (selectSpads_selected hselect).2)]
  exact bind_run hv

theorem setSpads_error (hbus : Succeeds bus)
    (hinfo : vl53l0xGetSpadInfoFromNvm (Logged.bus bus) fuel s = .ok info t)
    (hselect : selectSpads info = none) :
    ∃ u, vl53l0xSetSpadsFromNvm (Logged.bus bus) fuel s = .error (.result .errorSpad) u ∧
      Wrote (spadWrites s.dev.log) u := by
  obtain ⟨u, hrun, hu⟩ := spadRegs_run hbus hinfo
  refine ⟨u, (bind_run hinfo).trans ((bind_run hrun).trans ?_), hu⟩
  simp only [hselect]
  rfl

/-- The call succeeds if and only if there are as many candidates as asked for, and writes no map
if there are not. -/
structure SpadsComplete (bus : Bus δ) (fuel : Nat) (s : Vl53l0x (Logged δ)) (info : SpadInfo) :
    Prop where
  ok : (∃ u, vl53l0xSetSpadsFromNvm (Logged.bus bus) fuel s = .ok () u) ↔
    info.spadCount ≤ candidates info spadMaxCount
  error : candidates info spadMaxCount < info.spadCount →
    ∃ u, vl53l0xSetSpadsFromNvm (Logged.bus bus) fuel s = .error (.result .errorSpad) u ∧
      Wrote (spadWrites s.dev.log) u

theorem setSpads_ok_iff (hbus : Succeeds bus)
    (hinfo : vl53l0xGetSpadInfoFromNvm (Logged.bus bus) fuel s = .ok info t) :
    (∃ u, vl53l0xSetSpadsFromNvm (Logged.bus bus) fuel s = .ok () u) ↔
      info.spadCount ≤ candidates info (spadMaxCount - 1) := by
  rw [← selectSpads_some_iff]
  constructor
  · rintro ⟨u, hu⟩
    cases hselect : selectSpads info with
    | some selection => exact ⟨selection, rfl⟩
    | none =>
      obtain ⟨v, hv, -⟩ := setSpads_error hbus hinfo hselect
      rw [hv] at hu
      cases hu
  · rintro ⟨selection, hselect⟩
    exact setSpads_ok hbus hinfo hselect

theorem spads_complete_iff (hbus : Succeeds bus)
    (hinfo : vl53l0xGetSpadInfoFromNvm (Logged.bus bus) fuel s = .ok info t) :
    SpadsComplete bus fuel s info ↔
      ¬(isCandidate info.goodSpadMap (spadOffset info.spadType) (spadMaxCount - 1) = true ∧
        candidates info (spadMaxCount - 1) + 1 = info.spadCount) := by
  have hok := setSpads_ok_iff hbus hinfo
  have hlast : candidates info spadMaxCount = _ := candidates_succ info (spadMaxCount - 1)
  constructor
  · rintro ⟨hcomplete, -⟩ ⟨hcandidate, hcount⟩
    rw [hok, hlast, if_pos hcandidate] at hcomplete
    omega
  · intro hbound
    have hsame : info.spadCount ≤ candidates info (spadMaxCount - 1) ↔
        info.spadCount ≤ candidates info spadMaxCount := by
      rw [hlast]
      split
      case isTrue hcandidate =>
        have hne : candidates info (spadMaxCount - 1) + 1 ≠ info.spadCount :=
          fun heq => hbound ⟨hcandidate, heq⟩
        omega
      case isFalse => rw [Nat.add_zero]
    refine ⟨hok.trans hsame, fun hless => setSpads_error hbus hinfo ?_⟩
    cases hselect : selectSpads info with
    | none => rfl
    | some selection =>
      have hle := hsame.mp ((selectSpads_some_iff info).mp ⟨selection, hselect⟩)
      omega

end

structure Answers {δ : Type} (bus : Bus δ) (nvm : BitVec 32) (goodSpadMap : List Byte) : Prop where
  write (reg data : Byte) :
    Triple (fun _ => True) (i2cWriteAddr8Data8 bus reg data)
      (After (fun _ _ => False) fun _ => True) fun _ _ => False
  strobe : Triple (fun _ => True) (i2cReadAddr8Data8 bus 0x83)
    (fun r _ => r = (none, 0x01) ∧ True) fun _ _ => False
  nvm : Triple (fun _ => True) (i2cReadAddr8Data32 bus 0x90)
    (fun r _ => r = (none, nvm) ∧ True) fun _ _ => False
  map : Triple (fun _ => True)
    (i2cReadBytes bus regGlobalConfigSpadEnablesRef0 (List.replicate spadMapRowCount 0))
    (fun r _ => r = (none, goodSpadMap) ∧ True) fun _ _ => False

namespace Answers

variable {δ : Type} {bus : Bus δ} {nvm : BitVec 32} {goodSpadMap : List Byte}

theorem writeRegs (h : Answers bus nvm goodSpadMap) (regs : List (Byte × Byte)) :
    Triple (fun _ => True) (vl53l0xWrite8regs bus regs) (fun _ _ => True) fun _ _ => False :=
  writeRegs_rule fun r _ => h.write r.1 r.2

theorem updateStrobe (h : Answers bus nvm goodSpadMap) (f : Byte → Byte) :
    Triple (fun _ => True) (updateStrobe bus f) (fun _ _ => True) fun _ _ => False :=
  h.strobe.bindValue (write_rule (h.write _ _))

theorem readStrobe (h : Answers bus nvm goodSpadMap) (fuel : Nat) :
    Triple (fun _ => True) (vl53l0xReadStrobe bus (fuel + 1)) (fun _ _ => True)
      fun _ _ => False := by
  refine (h.write _ _).bind fun error => (check_rule error).bind fun _ => ?_
  refine Triple.bind (Q := fun _ _ => True) ?_ fun _ => write_rule (h.write _ _)
  exact h.strobe.bindValue (.ret fun _ h => h)

theorem getSpadInfo (h : Answers bus nvm goodSpadMap) (fuel : Nat) :
    Triple (fun _ => True) (vl53l0xGetSpadInfoFromNvm bus (fuel + 1))
      (fun info _ => info = {
        spadCount := ((nvm >>> 8) &&& 0x7F).toNat
        spadType := ((nvm >>> 15) &&& 0x01).toNat
        goodSpadMap }) fun _ _ => False := by
  refine getSpadInfo_rule (K := (· = nvm)) (fun regs _ => h.writeRegs regs) h.updateStrobe
    (h.write _ _) (h.readStrobe fuel) ?_ ?_
  · refine h.nvm.conseq (fun _ hs => hs) (fun r s hs => ?_) fun _ _ h => h
    rw [hs.1]
    exact ⟨rfl, trivial⟩
  · rintro data rfl
    refine h.map.conseq (fun _ hs => hs) (fun r s hs => ?_) fun _ _ h => h
    rw [hs.1]

theorem getSpadInfo_run (h : Answers bus nvm goodSpadMap) (fuel : Nat) (s : Vl53l0x δ) :
    ∃ t, vl53l0xGetSpadInfoFromNvm bus (fuel + 1) s = .ok {
      spadCount := ((nvm >>> 8) &&& 0x7F).toNat
      spadType := ((nvm >>> 15) &&& 0x01).toNat
      goodSpadMap } t := by
  obtain ⟨_, t, hrun, rfl⟩ := (h.getSpadInfo fuel).total (s := s) trivial
  exact ⟨t, hrun⟩

end Answers

def nvmBus (nvm : BitVec 32) (goodSpadMap : List Byte) : Bus Unit where
  elapse d := (false, d)
  setSlaveAddress _ d := d
  write _ _ d := (none, d)
  read reg data d :=
    if reg = regGlobalConfigSpadEnablesRef0 then
      (none, goodSpadMap, d)
    else if reg = 0x90 then
      (none, [nvm.extractLsb' 0 8, nvm.extractLsb' 8 8, nvm.extractLsb' 16 8,
        nvm.extractLsb' 24 8], d)
    else
      (none, data.map fun _ => 0x01, d)

theorem nvmBus_succeeds (nvm : BitVec 32) (goodSpadMap : List Byte) :
    Succeeds (nvmBus nvm goodSpadMap) where
  write _ _ _ := rfl
  read reg data _ := by
    rw [nvmBus]
    dsimp only
    split_ifs <;> rfl

theorem nvmBus_answers (nvm : BitVec 32) (goodSpadMap : List Byte) :
    Answers (Logged.bus (nvmBus nvm goodSpadMap)) nvm goodSpadMap where
  write _ _ _ _ := trivial
  strobe _ _ := ⟨rfl, trivial⟩
  nvm := by
    refine Triple.bindValue (a := (none, _)) (Q := fun _ => True) (fun _ _ => ⟨rfl, trivial⟩) ?_
    exact .ret fun _ _ => ⟨congrArg _ (nvm_bytes nvm), trivial⟩
  map _ _ := ⟨rfl, trivial⟩

def notInitialized : Vl53l0x Unit where
  stopVariable := 0
  statusMultiple := .notStarted
  initialized := false
  latestRanges _ := vl53l0xOutOfRange
  dev := ()

def oneGood (goodSpadMap : List Byte) : SpadInfo where
  spadCount := 1
  spadType := 0
  goodSpadMap := goodSpadMap

theorem spads_complete_iff_first :
    SpadsComplete (nvmBus 0x00000100 [0x01, 0, 0, 0, 0, 0]) 1 (logged notInitialized)
      (oneGood [0x01, 0, 0, 0, 0, 0]) := by
  obtain ⟨t, hrun⟩ := (nvmBus_answers 0x00000100 [0x01, 0, 0, 0, 0, 0]).getSpadInfo_run 0
    (logged notInitialized)
  exact (spads_complete_iff (nvmBus_succeeds _ _) hrun).mpr (by decide)

theorem not_spadsComplete_last :
    ¬SpadsComplete (nvmBus 0x00000100 [0, 0, 0, 0, 0, 0x08]) 1 (logged notInitialized)
      (oneGood [0, 0, 0, 0, 0, 0x08]) := by
  rintro ⟨hcomplete, -⟩
  obtain ⟨t, hrun⟩ := (nvmBus_answers 0x00000100 [0, 0, 0, 0, 0, 0x08]).getSpadInfo_run 0
    (logged notInitialized)
  have hok := (setSpads_ok_iff (nvmBus_succeeds _ _) hrun).mp (hcomplete.mpr (by decide))
  exact absurd hok (by decide)

end Vl53l0x

end Nsumo.Drivers
