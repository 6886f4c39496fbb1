import Nsumo.Drivers.Io
import Nsumo.Lib.Run

namespace Nsumo.Drivers

open Common Lib

namespace Io

def place (io : Io) : IoPort × Nat := (ioPort io, ioPinIdx io)

theorem ioPinIdx_lt (io : Io) : ioPinIdx io < 8 := by
  rw [ioPinIdx, BitVec.toNat_and]
  exact Nat.lt_of_le_of_lt Nat.and_le_right (by decide)

theorem getLsbD_set (io io' : Io) (regs : IoPort → Byte) :
    (Function.update regs (ioPort io) (regs (ioPort io) ||| ioPinBit io) (ioPort io')).getLsbD
        (ioPinIdx io') =
      ((regs (ioPort io')).getLsbD (ioPinIdx io') || decide (place io' = place io)) := by
  by_cases hport : ioPort io' = ioPort io
  · simp only [hport, Function.update_self, ioPinBit, Mask.getLsbD_set, place]
    simp [ioPinIdx_lt, eq_comm]
  · simp [hport, place]

theorem getLsbD_clear (io io' : Io) (regs : IoPort → Byte) :
    (Function.update regs (ioPort io) (regs (ioPort io) &&& ~~~ioPinBit io) (ioPort io')).getLsbD
        (ioPinIdx io') =
      ((regs (ioPort io')).getLsbD (ioPinIdx io') && decide (place io' ≠ place io)) := by
  by_cases hport : ioPort io' = ioPort io
  · simp only [hport, Function.update_self, ioPinBit, Mask.getLsbD_clear, place]
    simp
  · simp [hport, place]

end Io

namespace IoRegs

open Io

variable {η : Type} {regs : IoRegs η}

theorem flagged_eq (io : Io) (regs : IoRegs η) :
    regs.flagged io = (regs.portInterruptFlagRegs (ioPort io)).getLsbD (ioPinIdx io) := by
  rw [Bool.eq_iff_iff, flagged, bne_iff_ne]
  exact Mask.and_bit_ne_zero

theorem flagged_clear (io io' : Io) (regs : IoRegs η) :
    (ioClearInterrupt io regs).flagged io' = (regs.flagged io' && decide (place io' ≠ place io)) := by
  rw [flagged_eq, flagged_eq]
  exact getLsbD_clear io io' regs.portInterruptFlagRegs

theorem flagged_edge (io io' : Io) (regs : IoRegs η) :
    (edge io regs).flagged io' = (regs.flagged io' || decide (place io' = place io)) := by
  rw [flagged_eq, flagged_eq]
  exact getLsbD_set io io' regs.portInterruptFlagRegs

theorem isrFunction_configure {io : Io} {trigger : IoTrigger} {isr : η} {regs' : IoRegs η}
    (h : ioConfigureInterrupt io trigger isr regs = .ok regs') (io' : Io) :
    regs'.isrFunction io' = if place io' = place io then some isr else regs.isrFunction io' := by
  obtain ⟨-, -, hok⟩ := Run.bind_ok.mp h
  cases hok
  by_cases hport : ioPort io' = ioPort io
  · by_cases hidx : ioPinIdx io' = ioPinIdx io
    · simp [isrFunction, place, hport, hidx]
    · simp [isrFunction, place, hport, hidx]
      rfl
  · simp [isrFunction, place, hport]
    rfl

theorem pins_succ {first last : Io} {n : Nat} (h : last.toNat = first.toNat + (n + 1)) :
    pins first last = first :: pins (first + 1) last := by
  have hlt := last.isLt
  have hfirst : (first + 1).toNat = first.toNat + 1 := by
    rw [BitVec.toNat_add]
    exact Nat.mod_eq_of_lt (by simp; omega)
  have hlen : last.toNat + 1 - first.toNat = n + 2 := by omega
  have hlen' : last.toNat + 1 - (first + 1).toNat = n + 1 := by omega
  rw [pins, pins, hlen, hlen', List.range_succ_eq_map, List.map_cons, List.map_map]
  congr 1
  · simp
  · apply List.map_congr_left
    intro k _
    simp only [Function.comp_apply, Nat.succ_eq_add_one, BitVec.ofNat_add]
    rw [BitVec.add_comm (BitVec.ofNat 8 k), BitVec.add_assoc]
    rfl

theorem pins_self (io : Io) : pins io io = [io] := by
  simp [pins]

theorem foldl_ioIsr_regs (ios : List Io) (regs : IoRegs η) (calls : List Io) :
    (ios.foldl (fun called io => ioIsr io called) (regs, calls)).1 =
      (ios.foldl (fun called io => ioIsr io called) (regs, [])).1 := by
  induction ios generalizing regs calls with
  | nil => rfl
  | cons io ios ih =>
    simp only [List.foldl_cons, ioIsr]
    cases regs.flagged io with
    | false => exact ih regs calls
    | true => exact (ih _ _).trans (ih _ _).symm

theorem foldl_ioIsr {ios : List Io} (hios : (ios.map place).Nodup) (calls : List Io) :
    (ios.foldl (fun called io => ioIsr io called) (regs, calls)).2 =
      calls ++ ios.filter fun io => regs.flagged io && (regs.isrFunction io).isSome := by
  induction ios generalizing regs calls with
  | nil => simp
  | cons io ios ih =>
    rw [List.map_cons, List.nodup_cons] at hios
    obtain ⟨hne, hios⟩ := hios
    rw [List.foldl_cons, ioIsr]
    cases hflag : regs.flagged io with
    | false => simp [ih hios, hflag]
    | true =>
      have hrest : ∀ io' ∈ ios, (ioClearInterrupt io regs).flagged io' = regs.flagged io' := by
        intro io' hmem
        have hplace : place io' ≠ place io := fun h => hne (h ▸ List.mem_map_of_mem hmem)
        simp [flagged_clear, hplace]
      have hfilter : (ios.filter fun io' => (ioClearInterrupt io regs).flagged io' &&
          ((ioClearInterrupt io regs).isrFunction io').isSome) =
          ios.filter fun io' => regs.flagged io' && (regs.isrFunction io').isSome := by
        apply List.filter_congr
        intro io' hmem
        rw [hrest io' hmem]
        rfl
      simp only [if_true, ih hios, hfilter, List.filter_cons, hflag, Bool.true_and]
      split <;> simp

theorem mem_isrPort_iff {first last : Io} (hpins : ((pins first last).map place).Nodup) (io : Io) :
    io ∈ ((pins first last).foldl (fun called io => ioIsr io called) (regs, [])).2 ↔
      io ∈ pins first last ∧ regs.flagged io = true ∧ (regs.isrFunction io).isSome = true := by
  simp [foldl_ioIsr hpins]

def CallsEnabled (regs : IoRegs η) (calls : List Io) : Prop :=
  ∀ io ∈ calls, regs.flagged io = true ∧ regs.enabled io = true

def FlagsEnabled (first last : Io) (regs : IoRegs η) : Prop :=
  ∀ io ∈ pins first last, regs.flagged io = true → (regs.isrFunction io).isSome = true →
    regs.enabled io = true

theorem callsEnabled_iff {first last : Io} (hpins : ((pins first last).map place).Nodup) :
    regs.CallsEnabled ((pins first last).foldl (fun called io => ioIsr io called) (regs, [])).2 ↔
      regs.FlagsEnabled first last := by
  simp only [CallsEnabled, FlagsEnabled, mem_isrPort_iff hpins]
  exact ⟨fun h io hmem hflag hfun => (h io ⟨hmem, hflag, hfun⟩).2,
    fun h io ⟨hmem, hflag, hfun⟩ => ⟨hflag, h io hmem hflag hfun⟩⟩

theorem isrPort1_callsEnabled_iff (regs : IoRegs η) :
    regs.CallsEnabled (isrPort1 regs).2 ↔ regs.FlagsEnabled io10 io17 :=
  callsEnabled_iff (by decide)

theorem isrPort2_callsEnabled_iff (regs : IoRegs η) :
    regs.CallsEnabled (isrPort2 regs).2 ↔ regs.FlagsEnabled io20 io27 :=
  callsEnabled_iff (by decide)

end IoRegs

end Nsumo.Drivers
