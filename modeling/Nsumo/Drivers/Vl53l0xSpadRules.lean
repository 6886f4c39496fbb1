import Nsumo.Drivers.Vl53l0xRules
import Nsumo.Drivers.Vl53l0xSpad

namespace Nsumo.Drivers

open Common Lib

namespace Vl53l0x

theorem getSpadInfo_rule {δ : Type} {bus : Bus δ} {E : Vl53l0xStop → Vl53l0x δ → Prop}
    {P : Vl53l0x δ → Prop} {Q : SpadInfo → Vl53l0x δ → Prop} {K : BitVec 32 → Prop} {fuel : Nat}
    (hregs : ∀ regs, regs ⊆ nvmSetupRegs ++ nvmRestoreRegs →
      Triple P (vl53l0xWrite8regs bus regs) (fun _ => P) E)
    (hstrobe : ∀ f, Triple P (updateStrobe bus f) (fun _ => P) E)
    (hselect : Triple P (i2cWriteAddr8Data8 bus 0x94 0x6B) (After E P) E)
    (hready : Triple P (vl53l0xReadStrobe bus fuel) (fun _ => P) E)
    (hnvm : Triple P (i2cReadAddr8Data32 bus 0x90)
      (fun r => After E (fun s => K r.2 ∧ P s) r.1) E)
    (hmap : ∀ nvm, K nvm → Triple P
      (i2cReadBytes bus regGlobalConfigSpadEnablesRef0 (List.replicate spadMapRowCount 0))
      (fun r s => match r.1 with
        | none => Q {
            spadCount := ((nvm >>> 8) &&& 0x7F).toNat
            spadType := ((nvm >>> 15) &&& 0x01).toNat
            goodSpadMap := r.2 } s
        | some error => E (.result (i2cResult error)) s) E) :
    Triple P (vl53l0xGetSpadInfoFromNvm bus fuel) Q E := by
  refine (hregs _ (by decide)).bind fun _ => (hstrobe _).bind fun _ => ?_
  refine (hregs _ (by decide)).bind fun _ => hselect.bind fun error => (check_rule error).bind fun _ => ?_
  refine hready.bind fun _ => hnvm.bind fun (error, nvm) => ?_
  refine (check_rule error).bind fun _ => .guarded fun hknown => ?_
  refine (hregs _ (by decide)).bind fun _ => (hstrobe _).bind fun _ => ?_
  refine (hregs _ (by decide)).bind fun _ => (hmap nvm hknown).bind fun (error, goodSpadMap) => ?_
  cases error with
  | some error => exact .raise fun _ hs => hs
  | none => exact .ret fun _ hs => hs

structure CarriesOn {δ : Type} (regs : Byte → Bool) (bus : Bus δ) (P : Vl53l0x δ → Prop)
    (E : Vl53l0xStop → Vl53l0x δ → Prop) : Prop where
  fuel (s : Vl53l0x δ) : P s → E .fuel s
  write (reg data : Byte) : regs reg = true →
    Triple P (i2cWriteAddr8Data8 bus reg data) (After E P) E
  read (reg : Byte) (data : List Byte) : regs reg = true →
    Triple P (i2cReadBytes bus reg data) (fun r => After E P r.1) E

namespace CarriesOn

variable {δ : Type} {bus : Bus δ} {E : Vl53l0xStop → Vl53l0x δ → Prop} {P : Vl53l0x δ → Prop}
  {regs : Byte → Bool} {reg data : Byte}

theorem set (h : CarriesOn regs bus P E) (hreg : regs reg = true) :
    Triple P (i2cWriteAddr8Data8 bus reg data >>= check) (fun _ => P) E :=
  write_rule (h.write reg data hreg)

theorem writeRegs (h : CarriesOn regs bus P E) {list : List (Byte × Byte)}
    (hlist : list.all (fun r => regs r.1) = true) :
    Triple P (vl53l0xWrite8regs bus list) (fun _ => P) E :=
  writeRegs_rule fun r hr => h.write r.1 r.2 (List.all_eq_true.mp hlist r hr)

theorem read8 (h : CarriesOn regs bus P E) (hreg : regs reg = true) :
    Triple P (i2cReadAddr8Data8 bus reg) (fun r => After E P r.1) E :=
  (h.read reg [0] hreg).bind fun _ => .ret fun _ hs => hs

theorem read32 (h : CarriesOn regs bus P E) (hreg : regs reg = true) :
    Triple P (i2cReadAddr8Data32 bus reg) (fun r => After E P r.1) E :=
  (h.read reg [0, 0, 0, 0] hreg).bind fun _ => .ret fun _ hs => hs

theorem poll (h : CarriesOn regs bus P E) (hreg : regs reg = true) {again : Byte → Bool}
    {fuel : Nat} : Triple P (pollRegister bus reg again fuel) (fun _ => P) E :=
  pollRegister_rule h.fuel (h.read8 hreg)

theorem updateStrobe (h : CarriesOn regs bus P E) (hreg : regs 0x83 = true) (f : Byte → Byte) :
    Triple P (updateStrobe bus f) (fun _ => P) E :=
  (h.read8 hreg).bind fun r => (check_rule r.1).bind fun _ => h.set hreg

theorem readStrobe (h : CarriesOn regs bus P E) (hreg : regs 0x83 = true) (fuel : Nat) :
    Triple P (vl53l0xReadStrobe bus fuel) (fun _ => P) E :=
  (h.write 0x83 0x00 hreg).bind fun error => (check_rule error).bind fun _ =>
    (h.poll hreg).bind fun _ => h.set hreg

def NvmRegs (regs : Byte → Bool) : Prop :=
  (nvmSetupRegs ++ nvmRestoreRegs).all (fun r => regs r.1) = true ∧
    ([0x83, 0x94, 0x90] : List Byte).all regs = true

theorem getSpadInfo (h : CarriesOn regs bus P E) (hregs : NvmRegs regs) (fuel : Nat)
    {Q : Vl53l0x δ → Prop}
    (hmap : Triple P
      (i2cReadBytes bus regGlobalConfigSpadEnablesRef0 (List.replicate spadMapRowCount 0))
      (fun r s => match r.1 with
        | none => Q s
        | some error => E (.result (i2cResult error)) s) E) :
    Triple P (vl53l0xGetSpadInfoFromNvm bus fuel) (fun _ => Q) E := by
  obtain ⟨hlists, hothers⟩ := hregs
  simp only [List.all_cons, List.all_nil, Bool.and_true, Bool.and_eq_true] at hothers
  obtain ⟨hstrobe, hselect, hnvm⟩ := hothers
  refine getSpadInfo_rule (K := fun _ => True) (fun list hlist => ?_) (h.updateStrobe hstrobe)
    (h.write _ _ hselect) (h.readStrobe hstrobe fuel) ?_ fun _ _ => hmap
  · exact writeRegs_rule fun r hr =>
      h.write r.1 r.2 (List.all_eq_true.mp hlists r (hlist hr))
  · exact (h.read32 hnvm).conseq (fun _ hs => hs)
      (fun r s hs => hs.mono fun _ hP => ⟨trivial, hP⟩) fun _ _ hE => hE

end CarriesOn

structure Carries {δ : Type} (bus : Bus δ) (P : Vl53l0x δ → Prop)
    (E : Vl53l0xStop → Vl53l0x δ → Prop) : Prop where
  fuel (s : Vl53l0x δ) : P s → E .fuel s
  write (reg data : Byte) : SpadDevice.isSpadEnable reg = false →
    Triple P (i2cWriteAddr8Data8 bus reg data) (After E P) E
  read (reg : Byte) (data : List Byte) : SpadDevice.isSpadEnable reg = false →
    Triple P (i2cReadBytes bus reg data) (fun r => After E P r.1) E

namespace Carries

variable {δ : Type} {bus : Bus δ} {E : Vl53l0xStop → Vl53l0x δ → Prop} {P Q : Vl53l0x δ → Prop}
  {reg data : Byte}

theorem on (h : Carries bus P E) : CarriesOn (fun reg => !SpadDevice.isSpadEnable reg) bus P E where
  fuel := h.fuel
  write reg data hreg := h.write reg data (by rwa [Bool.not_eq_true'] at hreg)
  read reg data hreg := h.read reg data (by rwa [Bool.not_eq_true'] at hreg)

theorem set (h : Carries bus P E) (hreg : SpadDevice.isSpadEnable reg = false) :
    Triple P (i2cWriteAddr8Data8 bus reg data >>= check) (fun _ => P) E :=
  write_rule (h.write reg data hreg)

theorem writeRegs (h : Carries bus P E) {regs : List (Byte × Byte)}
    (hregs : regs.all (fun r => !SpadDevice.isSpadEnable r.1) = true) :
    Triple P (vl53l0xWrite8regs bus regs) (fun _ => P) E :=
  h.on.writeRegs hregs

theorem nvmRegs (h : Carries bus P E) (regs : List (Byte × Byte))
    (hregs : regs ⊆ nvmSetupRegs ++ nvmRestoreRegs) :
    Triple P (vl53l0xWrite8regs bus regs) (fun _ => P) E := by
  have hplain : (nvmSetupRegs ++ nvmRestoreRegs).all
      (fun r => !SpadDevice.isSpadEnable r.1) = true := rfl
  exact h.writeRegs (List.all_eq_true.mpr fun r hr => List.all_eq_true.mp hplain r (hregs hr))

theorem read8 (h : Carries bus P E) (hreg : SpadDevice.isSpadEnable reg = false) :
    Triple P (i2cReadAddr8Data8 bus reg) (fun r => After E P r.1) E :=
  (h.read reg [0] hreg).bind fun _ => .ret fun _ hs => hs

theorem poll (h : Carries bus P E) (hreg : SpadDevice.isSpadEnable reg = false)
    {again : Byte → Bool} {fuel : Nat} :
    Triple P (pollRegister bus reg again fuel) (fun _ => P) E :=
  pollRegister_rule h.fuel (h.read8 hreg)

theorem updateStrobe (h : Carries bus P E) (f : Byte → Byte) :
    Triple P (updateStrobe bus f) (fun _ => P) E :=
  h.on.updateStrobe rfl f

theorem readStrobe (h : Carries bus P E) (fuel : Nat) :
    Triple P (vl53l0xReadStrobe bus fuel) (fun _ => P) E :=
  h.on.readStrobe rfl fuel

theorem getSpadInfo (h : Carries bus P E) (fuel : Nat)
    (hmap : Triple P
      (i2cReadBytes bus regGlobalConfigSpadEnablesRef0 (List.replicate spadMapRowCount 0))
      (fun r s => match r.1 with
        | none => Q s
        | some error => E (.result (i2cResult error)) s) E) :
    Triple P (vl53l0xGetSpadInfoFromNvm bus fuel) (fun _ => Q) E :=
  h.on.getSpadInfo ⟨rfl, rfl⟩ fuel hmap

end Carries

end Vl53l0x

end Nsumo.Drivers
