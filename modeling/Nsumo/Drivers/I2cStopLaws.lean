import Nsumo.Drivers.I2cTraceLaws
import Nsumo.Lib.Triple

namespace Nsumo.Drivers

open Common Lib

namespace I2c

def leftStarted : (started : Bool) → List I2cAccess → Bool
  | started, [] => started
  | _, .control .start :: trace => leftStarted true trace
  | _, .control .stop :: trace => leftStarted false trace
  | started, _ :: trace => leftStarted started trace

/-- However the transfer ends, its last start condition is followed by a stop condition. -/
def Released (transfer : Transfer) (s : I2c) : Prop :=
  leftStarted false (stateAfter (transfer { s with trace := [] })).trace = false

def writePhaseFlags (addr bytes : List Byte) : List I2cFlag :=
  addrFlags addr ++ List.replicate bytes.length .ucb0TxIfg

def readPhaseFlags (addr : List Byte) (dataSize : Nat) : List I2cFlag :=
  addrFlags addr ++ .ucTxStt :: List.replicate (dataSize - 1) .ucb0RxIfg

section

variable {started : Bool} {waits : Nat → I2cWait} {rxBuf : Nat → Byte} {xs ys : List I2cAction}

theorem leftStarted_append (xs ys : List I2cAccess) :
    leftStarted started (xs ++ ys) = leftStarted (leftStarted started xs) ys := by
  induction xs generalizing started with
  | nil => rfl
  | cons a xs ih =>
    cases a with
    | control c => cases c <;> exact ih
    | txBuf | rxBuf | waited => exact ih

theorem leftStarted_entries
    (hnever : ∀ c, .control c ∈ xs → c ≠ if started then .stop else .start) :
    leftStarted started (entries xs waits rxBuf) = started := by
  induction xs generalizing waits rxBuf with
  | nil => rfl
  | cons action xs ih =>
    have hrest (c : I2cControl) (hc : .control c ∈ xs) : c ≠ if started then .stop else .start :=
      hnever c (List.mem_cons_of_mem action hc)
    cases action with
    | control c =>
      have hne := hnever c List.mem_cons_self
      cases c with
      | setTransmitter | clearTransmitter => exact ih hrest
      | start =>
        cases started with
        | true => exact ih hrest
        | false => exact absurd rfl hne
      | stop =>
        cases started with
        | true => exact absurd rfl hne
        | false => exact ih hrest
    | txBuf | receive => exact ih hrest
    | wait flag =>
      rw [entries]
      split
      · exact ih hrest
      · rfl

theorem entries_append (hgo : AllGoThrough (waitFlags xs) waits) (ys : List I2cAction) :
    ∃ waits' rxBuf',
      entries (xs ++ ys) waits rxBuf = entries xs waits rxBuf ++ entries ys waits' rxBuf' := by
  induction xs generalizing waits rxBuf with
  | nil => exact ⟨waits, rxBuf, rfl⟩
  | cons action xs ih =>
    cases action with
    | control c =>
      obtain ⟨waits', rxBuf', h⟩ := @ih waits rxBuf hgo
      exact ⟨waits', rxBuf', congrArg (List.cons _) h⟩
    | txBuf byte =>
      obtain ⟨waits', rxBuf', h⟩ := @ih waits rxBuf hgo
      exact ⟨waits', rxBuf', congrArg (List.cons _) h⟩
    | receive i =>
      obtain ⟨waits', rxBuf', h⟩ := @ih waits (fun k => rxBuf (k + 1)) hgo
      exact ⟨waits', rxBuf', congrArg (List.cons _) h⟩
    | wait flag =>
      obtain ⟨waits', rxBuf', h⟩ := @ih (fun k => waits (k + 1)) rxBuf hgo.2
      refine ⟨waits', rxBuf', ?_⟩
      rw [List.cons_append, entries_wait (xs ++ ys) hgo.1, entries_wait xs hgo.1, h]
      rfl

theorem entries_append_of_stuck (hstuck : ¬AllGoThrough (waitFlags xs) waits)
    (ys : List I2cAction) : entries (xs ++ ys) waits rxBuf = entries xs waits rxBuf := by
  induction xs generalizing waits rxBuf with
  | nil => exact absurd trivial hstuck
  | cons action xs ih =>
    cases action with
    | control c => exact congrArg (List.cons _) (ih hstuck)
    | txBuf byte => exact congrArg (List.cons _) (ih hstuck)
    | receive i => exact congrArg (List.cons _) (ih hstuck)
    | wait flag =>
      rw [List.cons_append, entries, entries]
      by_cases hgo : (waits 0).GoesThrough flag
      · rw [waitError_eq_none.mpr hgo]
        exact congrArg _ (ih fun hrest => hstuck ⟨hgo, hrest⟩)
      · have herror : (waitError flag (waits 0)).isNone = false := by
          rw [← Bool.not_eq_true, Option.isNone_iff_eq_none, waitError_eq_none]
          exact hgo
        rw [herror]
        rfl

theorem leftStarted_iff (hxs : ∀ c, .control c ∈ xs → c ≠ .stop)
    (hys : ∀ c, .control c ∈ ys → c ≠ .start) :
    leftStarted false (entries
        (.control .setTransmitter :: .control .start :: xs ++ .control .stop :: ys) waits rxBuf) =
      false ↔ AllGoThrough (waitFlags xs) waits := by
  change leftStarted true (entries (xs ++ .control .stop :: ys) waits rxBuf) = false ↔ _
  by_cases hgo : AllGoThrough (waitFlags xs) waits
  · obtain ⟨waits', rxBuf', happend⟩ := @entries_append waits rxBuf xs hgo (.control .stop :: ys)
    rw [happend, leftStarted_append]
    exact iff_of_true (@leftStarted_entries false waits' rxBuf' ys hys) hgo
  · rw [entries_append_of_stuck hgo, leftStarted_entries hxs]
    exact iff_of_false nofun hgo

end

theorem control_not_mem_send (c : I2cControl) (bytes : List Byte) :
    .control c ∉ sendActions bytes := by
  induction bytes with
  | nil => exact List.not_mem_nil
  | cons byte bytes ih => simpa [sendActions] using ih

theorem control_not_mem_receive (c : I2cControl) (i : Nat) : .control c ∉ receiveActions i := by
  induction i with
  | zero => exact List.not_mem_nil
  | succ i ih => simpa [receiveActions] using ih

theorem released_iff {transfer : Transfer} {actions : List I2cAction} {s : I2c}
    (h : transfer = performAll actions) :
    Released transfer s ↔ leftStarted false (entries actions s.waits s.rxBuf) = false := by
  rw [Released, h]
  obtain ⟨t, hrun, -, htrace, -⟩ | ⟨e, t, hrun, -, htrace⟩ := performAll_fresh actions s
  · rw [hrun, ← htrace]
    rfl
  · rw [hrun, ← htrace]
    rfl

theorem write_released_iff {addr bytes : List Byte} {s : I2c} (haddr : 0 < addr.length)
    (hbytes : 0 < bytes.length) :
    Released (i2cWrite addr bytes) s ↔ AllGoThrough (writePhaseFlags addr bytes) s.waits := by
  rw [released_iff (i2cWrite_eq haddr hbytes), writePhaseFlags, ← waitFlags_addr haddr,
    ← waitFlags_send, ← waitFlags_append, writeActions, ← List.append_assoc]
  refine leftStarted_iff (fun c hc => ?_) fun c hc => ?_
  · simp [control_not_mem_send] at hc
  · simp at hc

theorem read_released_iff {addr : List Byte} {dataSize : Nat} {s : I2c} (haddr : 0 < addr.length)
    (hsize : 0 < dataSize) :
    Released (i2cRead addr dataSize) s ↔ AllGoThrough (readPhaseFlags addr dataSize) s.waits := by
  have hflags : readPhaseFlags addr dataSize = waitFlags (addrActions addr ++
      ([.control .clearTransmitter, .control .start, .wait .ucTxStt] ++
        receiveActions (dataSize - 1))) := by
    rw [waitFlags_append, waitFlags_append, waitFlags_addr haddr, waitFlags_receive]
    rfl
  have hactions : readActions addr dataSize = addrActions addr ++
      ([.control .clearTransmitter, .control .start, .wait .ucTxStt] ++
        receiveActions (dataSize - 1)) ++ (stopActions ++ [.wait .ucb0RxIfg, .receive 0]) := by
    simp only [readActions, List.append_assoc]
  rw [released_iff (i2cRead_eq haddr hsize), hflags, hactions]
  refine leftStarted_iff (fun c hc => ?_) fun c hc => ?_
  · simp [control_not_mem_send, control_not_mem_receive] at hc
    obtain rfl | rfl := hc <;> decide
  · simp at hc

theorem bus_released_iff {addr bytes : List Byte} {dataSize : Nat} {s : I2c}
    (haddr : 0 < addr.length) (hbytes : 0 < bytes.length) (hsize : 0 < dataSize) :
    (Released (i2cWrite addr bytes) s ↔ AllGoThrough (writePhaseFlags addr bytes) s.waits) ∧
      (Released (i2cRead addr dataSize) s ↔
        AllGoThrough (readPhaseFlags addr dataSize) s.waits) :=
  ⟨write_released_iff haddr hbytes, read_released_iff haddr hsize⟩

theorem bus_released_iff_deadBus :
    (Released (i2cWrite [0x80] [0x01]) deadBus ↔
        AllGoThrough (writePhaseFlags [0x80] [0x01]) deadBus.waits) ∧
      (Released (i2cRead [0x80] 1) deadBus ↔
        AllGoThrough (readPhaseFlags [0x80] 1) deadBus.waits) :=
  bus_released_iff (by decide) (by decide) (by decide)

def refusingBus : I2c where
  waits _ := ⟨fun _ => false, true⟩
  rxBuf _ := 0
  data := [0]
  trace := []

theorem not_released_refusingBus :
    ¬Released (i2cWrite [0x80] [0x01]) refusingBus ∧ ¬Released (i2cRead [0x80] 1) refusingBus := by
  rw [write_released_iff (by decide) (by decide), read_released_iff (by decide) (by decide)]
  constructor
  · rintro ⟨⟨hnack, -⟩, -⟩
    cases hnack
  · rintro ⟨⟨hnack, -⟩, -⟩
    cases hnack

end I2c

end Nsumo.Drivers
