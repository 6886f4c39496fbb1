import Nsumo.Drivers.Adc
import Nsumo.Drivers.IoLaws
import Mathlib.Data.List.Nodup

namespace Nsumo.Drivers.Adc

open Common Lib Io

variable {pins : List Io} {adc : Adc} {io : Io}

structure Port1Pins (pins : List Io) : Prop where
  nodup : pins.Nodup
  port1 : ∀ io ∈ pins, io ≤ io17

theorem ioPort_port1 : ∀ io : Io, io ≤ io17 → ioPort io = .port1 := by decide

theorem ioToAdcIdx_ok (h : io ≤ io17) : ioToAdcIdx io = .ok (BitVec.ofNat 8 (ioPinIdx io)) := by
  rw [ioToAdcIdx, ioPort_port1 io h]
  rfl

theorem toNat_ofNat_ioPinIdx (io : Io) : (BitVec.ofNat 8 (ioPinIdx io)).toNat = ioPinIdx io := by
  have hlt := ioPinIdx_lt io
  rw [BitVec.toNat_ofNat]
  exact Nat.mod_eq_of_lt (by omega)

theorem Port1Pins.length_le (h : Port1Pins pins) : pins.length ≤ 8 := by
  have hsubset : pins.map BitVec.toNat ⊆ List.range 8 := by
    intro i hi
    obtain ⟨io, hio, rfl⟩ := List.mem_map.mp hi
    exact List.mem_range.mpr (Nat.lt_succ_of_le (h.port1 io hio))
  have hnodup : (pins.map BitVec.toNat).Nodup :=
    List.Nodup.map (fun _ _ => BitVec.eq_of_toNat_eq) h.nodup
  simpa using hnodup.length_le_of_subset hsubset

structure Scanned (pins : List Io) (scanned : Byte × Byte) : Prop where
  lt : scanned.2.toNat < 8
  le : ∀ io ∈ pins, ioPinIdx io ≤ scanned.2.toNat

theorem Scanned.scanPin {scanned : Byte × Byte} (h : Scanned pins scanned) (hio : io ≤ io17) :
    ∃ scanned', scanPin scanned io = .ok scanned' ∧ Scanned (pins ++ [io]) scanned' := by
  refine ⟨_, by rw [Adc.scanPin, ioToAdcIdx_ok hio]; rfl, ?_⟩
  have hidx := toNat_ofNat_ioPinIdx io
  have hlt := ioPinIdx_lt io
  constructor
  · dsimp only
    split
    · omega
    · exact h.lt
  · intro io' hio'
    dsimp only
    obtain hmem | hmem := List.mem_append.mp hio'
    · have hle := h.le io' hmem
      split
      case isTrue hgt =>
        have hgt' := BitVec.lt_def.mp hgt
        omega
      case isFalse => exact hle
    · obtain rfl := List.mem_singleton.mp hmem
      split
      case isTrue => omega
      case isFalse hle =>
        have hle' := BitVec.not_lt.mp hle
        rw [BitVec.le_def, hidx] at hle'
        exact hle'

structure Configured (pins : List Io) (adc : Adc) : Prop where
  listed : adc.adcPins.take adc.adcPinCnt.toNat = pins
  port1 : ∀ io ∈ pins, io ≤ io17
  lt : ∀ io ∈ pins, ioPinIdx io < adc.dtcChannelCnt.toNat
  le : adc.dtcChannelCnt.toNat ≤ 8
  transfers : adc.adc10dtc1 = adc.dtcChannelCnt
  inch : (adc.adc10ctl1 >>> 12).toNat + 1 = adc.dtcChannelCnt.toNat

theorem inch_shift : ∀ lastIdx : Byte, lastIdx.toNat < 8 →
    (((lastIdx.zeroExtend 16 <<< 12 : BitVec 16) + adc10div7 + conseq1 + shs0 + adc10ssel1) >>> 12).toNat
      = lastIdx.toNat := by
  decide +kernel

theorem adcInit_ok (h : Port1Pins pins) (hfresh : adc.initialized = false) :
    ∃ adc', adcInit pins adc = .ok adc' ∧ Configured pins adc' := by
  have hlen := h.length_le
  have hcnt : (BitVec.ofNat 8 pins.length).toNat = pins.length := by
    rw [BitVec.toNat_ofNat]
    exact Nat.mod_eq_of_lt (by omega)
  have htake : pins.take (BitVec.ofNat 8 pins.length).toNat = pins := by
    rw [hcnt, List.take_length]
  have hstart : Scanned [] ((0, 0) : Byte × Byte) := ⟨by decide, nofun⟩
  obtain ⟨⟨adc10ae0, lastIdx⟩, hscan, hlt, hle⟩ := Cells.foldlM_list hstart
    fun _ io _ hio hpre => hpre.scanPin (h.port1 io hio)
  refine ⟨_, by simp only [adcInit, hfresh, htake, hscan]; rfl, ?_⟩
  have hnext : (lastIdx + 1).toNat = lastIdx.toNat + 1 := by
    rw [BitVec.toNat_add]
    exact Nat.mod_eq_of_lt (Nat.lt_of_lt_of_le (Nat.succ_lt_succ hlt) (by decide))
  refine ⟨htake, h.port1, fun io hio => ?_, ?_, rfl, ?_⟩
  · exact Nat.lt_of_le_of_lt (hle io hio) (hnext.symm ▸ Nat.lt_succ_self _)
  · exact hnext.symm ▸ Nat.succ_le_of_lt hlt
  · exact (congrArg (· + 1) (inch_shift lastIdx hlt)).trans hnext.symm

def transferred (samples : Nat → BitVec 16) (adc : Adc) : AdcChannelValues :=
  Cells.filled (fun k => samples (adc.dtcChannelCnt.toNat - 1 - k)) adc.dtcChannelCnt.toNat
    adc.adcDtcBlock

theorem transfer_ok (h : Configured pins adc) (samples : Nat → BitVec 16) :
    transfer samples adc = .ok { adc with adcDtcBlock := transferred samples adc } := by
  have hinch : (adc.adc10ctl1 >>> 12).toNat = adc.dtcChannelCnt.toNat - 1 := by
    have hsucc := h.inch
    omega
  have hloop : (List.range adc.dtcChannelCnt.toNat).foldlM (fun block k =>
      Cells.write AdcStop.outside k (samples (adc.dtcChannelCnt.toNat - 1 - k)) block)
      adc.adcDtcBlock = .ok (transferred samples adc) :=
    Cells.foldlM_fill .outside h.le _ fun _ _ _ => rfl
  rw [transfer, h.transfers, hinch, hloop]
  rfl

theorem read_transferred (h : Configured pins adc) (samples : Nat → BitVec 16) {i : Nat}
    (hi : i < adc.dtcChannelCnt.toNat) :
    Cells.read AdcStop.outside (adc.dtcChannelCnt.toNat - 1 - i) (transferred samples adc) =
      .ok (samples i) := by
  have hlt : adc.dtcChannelCnt.toNat - 1 - i < adc.dtcChannelCnt.toNat := by omega
  have hin : adc.dtcChannelCnt.toNat - 1 - i < adcChannelCount := Nat.lt_of_lt_of_le hlt h.le
  have hback : adc.dtcChannelCnt.toNat - 1 - (adc.dtcChannelCnt.toNat - 1 - i) = i := by omega
  rw [Cells.read_ok hin, transferred, Cells.filled, if_pos hlt, hback]

def convert (samples : Nat → BitVec 16) (adc : Adc) : Except AdcStop Adc :=
  transfer samples adc >>= isrAdc10

theorem convert_ok (h : Configured pins adc) (samples : Nat → BitVec 16) :
    ∃ adc', convert samples adc = .ok adc' ∧ Configured pins adc' ∧
      ∀ i (hi : i < adcChannelCount), i < adc'.dtcChannelCnt.toNat →
        adc'.adcDtcBlockCache ⟨i, hi⟩ = samples i := by
  have hloop : (List.range adc.dtcChannelCnt.toNat).foldlM (fun cache i => do
      let sample ← Cells.read AdcStop.outside (adc.dtcChannelCnt.toNat - 1 - i) (transferred samples adc)
      Cells.write AdcStop.outside i sample cache) adc.adcDtcBlockCache =
        .ok (Cells.filled samples adc.dtcChannelCnt.toNat adc.adcDtcBlockCache) := by
    refine Cells.foldlM_fill .outside h.le _ fun i hi cache => ?_
    rw [read_transferred h samples hi]
    rfl
  refine ⟨_, by rw [convert, transfer_ok h, Run.ok_bind, isrAdc10, hloop]; rfl, ?_, ?_⟩
  · exact ⟨h.listed, h.port1, h.lt, h.le, h.transfers, h.inch⟩
  · intro i hi hlt
    exact if_pos hlt

theorem convert_all (h : Configured pins adc) (rounds : List (Nat → BitVec 16)) :
    ∃ adc', rounds.foldlM (fun adc samples => convert samples adc) adc = .ok adc' ∧
      Configured pins adc' := by
  refine Cells.foldlM_list (I := fun _ => Configured pins) h fun _ samples adc _ hadc => ?_
  obtain ⟨adc', hrun, hnext, -⟩ := convert_ok hadc samples
  exact ⟨adc', hrun, hnext⟩

structure Stored (cache values : AdcChannelValues) (pins : List Io) (values' : AdcChannelValues) :
    Prop where
  listed : ∀ io ∈ pins, ∀ h : ioPinIdx io < adcChannelCount,
    values' ⟨ioPinIdx io, h⟩ = cache ⟨ioPinIdx io, h⟩
  others : ∀ k : Fin adcChannelCount, (∀ io ∈ pins, ioPinIdx io ≠ k) → values' k = values k

theorem Stored.store {cache values values' : AdcChannelValues} (h : Stored cache values pins values')
    (hlt : ioPinIdx io < adcChannelCount) :
    Stored cache values (pins ++ [io])
      (Function.update values' ⟨ioPinIdx io, hlt⟩ (cache ⟨ioPinIdx io, hlt⟩)) where
  listed io' hio' hlt' := by
    by_cases heq : ioPinIdx io' = ioPinIdx io
    · simp only [heq, Function.update_self]
    · have hne : (⟨ioPinIdx io', hlt'⟩ : Fin adcChannelCount) ≠ ⟨ioPinIdx io, hlt⟩ := fun hk =>
        heq (Fin.mk.inj hk)
      rw [Function.update_of_ne hne]
      obtain hmem | hmem := List.mem_append.mp hio'
      · exact h.listed io' hmem hlt'
      · exact absurd (congrArg ioPinIdx (List.mem_singleton.mp hmem)) heq
  others k hk := by
    have hne : k ≠ ⟨ioPinIdx io, hlt⟩ := fun heq =>
      hk io (List.mem_append_right _ List.mem_cons_self) (congrArg Fin.val heq).symm
    rw [Function.update_of_ne hne]
    exact h.others k fun io' hio' => hk io' (List.mem_append_left _ hio')

theorem adcGetChannelValues_ok (h : Configured pins adc) (values : AdcChannelValues) :
    ∃ values', adcGetChannelValues values adc = .ok values' ∧
      Stored adc.adcDtcBlockCache values pins values' := by
  have hstart : Stored adc.adcDtcBlockCache values [] values := ⟨nofun, fun _ _ => rfl⟩
  rw [adcGetChannelValues, h.listed]
  refine Cells.foldlM_list hstart fun pre io values' hio hpre => ?_
  have hlt : ioPinIdx io < adcChannelCount := ioPinIdx_lt io
  refine ⟨_, ?_, hpre.store hlt⟩
  rw [ioToAdcIdx_ok (h.port1 io hio), Run.ok_bind, toNat_ofNat_ioPinIdx, Cells.read_ok hlt,
    Run.ok_bind, Cells.write_ok hlt]

def adcRun (pins : List Io) (rounds : List (Nat → BitVec 16)) (values : AdcChannelValues)
    (adc : Adc) : Except AdcStop AdcChannelValues := do
  let adc ← adcInit pins adc
  let adc ← rounds.foldlM (fun adc samples => convert samples adc) adc
  adcGetChannelValues values adc

theorem adcRun_ok (h : Port1Pins pins) (hfresh : adc.initialized = false)
    (rounds : List (Nat → BitVec 16)) (samples : Nat → BitVec 16) (values : AdcChannelValues) :
    adcRun pins (rounds ++ [samples]) values adc =
      .ok fun k => if k.val ∈ pins.map ioPinIdx then samples k else values k := by
  obtain ⟨adc₁, hinit, h₁⟩ := adcInit_ok h hfresh
  obtain ⟨adc₂, hrounds, h₂⟩ := convert_all h₁ rounds
  obtain ⟨adc₃, hlast, h₃, hcache⟩ := convert_ok h₂ samples
  obtain ⟨values', hget, hstored⟩ := adcGetChannelValues_ok h₃ values
  have hrun : adcRun pins (rounds ++ [samples]) values adc = .ok values' := by
    rw [adcRun, hinit, Run.ok_bind, List.foldlM_append, hrounds, Run.ok_bind, List.foldlM_cons,
      hlast]
    exact hget
  refine hrun.trans (congrArg _ (funext fun k => ?_))
  by_cases hk : k.val ∈ pins.map ioPinIdx
  · obtain ⟨io, hio, hidx⟩ := List.mem_map.mp hk
    have hlt : ioPinIdx io < adcChannelCount := ioPinIdx_lt io
    obtain rfl : k = ⟨ioPinIdx io, hlt⟩ := Fin.ext hidx.symm
    rw [if_pos hk, hstored.listed io hio hlt, hcache _ hlt (h₃.lt io hio)]
  · rw [if_neg hk]
    exact hstored.others k fun io hio hidx => hk (hidx ▸ List.mem_map_of_mem hio)

theorem adcRun_nsumo :
    adcRun (ioAdcPins .nsumo) ([] ++ [fun i => BitVec.ofNat 16 (100 * i)]) (fun _ => 7) reset =
      .ok fun k => if k.val ∈ (ioAdcPins .nsumo).map ioPinIdx then BitVec.ofNat 16 (100 * k) else 7 :=
  adcRun_ok ⟨by decide, by decide⟩ rfl [] (fun i => BitVec.ofNat 16 (100 * i)) (fun _ => 7)

end Nsumo.Drivers.Adc
