import Nsumo.Drivers.I2c
import Mathlib.Data.List.Basic

namespace Nsumo.Drivers

open Common

def I2cFlag.awaited : I2cFlag → Bool
  | .ucb0TxIfg | .ucb0RxIfg => true
  | .ucTxStt | .ucTxStp => false

namespace I2cWait

/-- The bit is read as set at one of the first 65535 polls. -/
def Seen (wait : I2cWait) : Prop := ∃ j < I2c.retryCount, wait.polls j = true

/-- The bit is first read as set at the 65536th poll. -/
def Late (wait : I2cWait) : Prop := ¬wait.Seen ∧ wait.polls I2c.retryCount = true

def Cleared (wait : I2cWait) : Prop := ∃ j < I2c.retryCount, wait.polls j = false

def GoesThrough (flag : I2cFlag) (wait : I2cWait) : Prop :=
  wait.nack = false ∧ if flag.awaited then ¬wait.Late else wait.Cleared

end I2cWait

namespace I2c

theorem pollFlag_spec (polls : Nat → Bool) (retries j : Nat) :
    (∃ k < retries, polls (j + k) = true) ∧ (pollFlag polls retries j).1 ≠ 0 ∧
        (pollFlag polls retries j).2 = true ∨
      (∀ k < retries, polls (j + k) = false) ∧
        pollFlag polls retries j = if polls (j + retries) then (0, true) else (65535, false) := by
  induction retries generalizing j with
  | zero => exact .inr ⟨by simp, rfl⟩
  | succ retries ih =>
    rw [pollFlag]
    cases hj : polls j with
    | true => exact .inl ⟨⟨0, by omega, hj⟩, by simp, rfl⟩
    | false =>
      have hshift (k : Nat) : j + 1 + k = j + (k + 1) := by omega
      obtain ⟨⟨k, hk, hpoll⟩, hne, hlast⟩ | ⟨hclear, heq⟩ := ih (j + 1)
      · exact .inl ⟨⟨k + 1, by omega, by rwa [← hshift]⟩, hne, hlast⟩
      · refine .inr ⟨?_, by simpa [hshift] using heq⟩
        intro k hk
        cases k with
        | zero => exact hj
        | succ k => exact (hshift k) ▸ hclear k (by omega)

theorem pollCondition_spec (polls : Nat → Bool) (retries j : Nat) :
    (∃ k < retries + 1, polls (j + k) = false) ∧ (pollCondition polls retries j).1 ≠ 0 ∧
        (pollCondition polls retries j).2 = false ∨
      (∀ k < retries + 1, polls (j + k) = true) ∧
        pollCondition polls retries j = (0, true) := by
  induction retries generalizing j with
  | zero =>
    rw [pollCondition]
    cases hj : polls j with
    | false => exact .inl ⟨⟨0, by omega, hj⟩, by simp, rfl⟩
    | true =>
      refine .inr ⟨fun k hk => ?_, rfl⟩
      obtain rfl : k = 0 := by omega
      exact hj
  | succ retries ih =>
    rw [pollCondition]
    cases hj : polls j with
    | false => exact .inl ⟨⟨0, by omega, hj⟩, by simp, rfl⟩
    | true =>
      have hshift (k : Nat) : j + 1 + k = j + (k + 1) := by omega
      obtain ⟨⟨k, hk, hpoll⟩, hne, hlast⟩ | ⟨hset, heq⟩ := ih (j + 1)
      · exact .inl ⟨⟨k + 1, by omega, by rwa [← hshift]⟩, hne, hlast⟩
      · refine .inr ⟨?_, by simpa using heq⟩
        intro k hk
        cases k with
        | zero => exact hj
        | succ k => exact (hshift k) ▸ hset k (by omega)

section

variable {flag : I2cFlag} {wait : I2cWait}

theorem poll_byte (hflag : flag.awaited = true) :
    ((poll flag wait.polls).1 = 0 ↔ wait.Late) ∧
      ((poll flag wait.polls).2 = true ↔ wait.Seen ∨ wait.Late) := by
  have hpoll : poll flag wait.polls = pollFlag wait.polls retryCount 0 := by
    cases flag <;> first | rfl | cases hflag
  rw [hpoll]
  obtain ⟨⟨k, hk, hset⟩, hne, hlast⟩ | ⟨hclear, heq⟩ := pollFlag_spec wait.polls retryCount 0
  · have hseen : wait.Seen := ⟨k, hk, by simpa using hset⟩
    simp [hne, hlast, hseen, I2cWait.Late]
  · have hseen : ¬wait.Seen := by
      rintro ⟨j, hj, hset⟩
      simpa [hset] using hclear j hj
    rw [heq, Nat.zero_add]
    cases hlate : wait.polls retryCount <;> simp [hseen, I2cWait.Late, hlate]

theorem poll_condition (hflag : flag.awaited = false) :
    ((poll flag wait.polls).1 = 0 ↔ ¬wait.Cleared) ∧
      ((poll flag wait.polls).1 = 0 → (poll flag wait.polls).2 = true) := by
  have hpoll : poll flag wait.polls = pollCondition wait.polls (retryCount - 1) 0 := by
    cases flag <;> first | rfl | cases hflag
  rw [hpoll]
  have hcount : retryCount - 1 + 1 = retryCount := rfl
  obtain ⟨⟨k, hk, hclear⟩, hne, -⟩ | ⟨hset, heq⟩ :=
    pollCondition_spec wait.polls (retryCount - 1) 0
  · have hcleared : wait.Cleared := ⟨k, hcount ▸ hk, by simpa using hclear⟩
    simp [hne, hcleared]
  · have hcleared : ¬wait.Cleared := by
      rintro ⟨j, hj, hclear⟩
      simpa [hclear] using hset j (hcount ▸ hj)
    simp [heq, hcleared]

theorem poll_zero :
    (poll flag wait.polls).1 = 0 ↔ if flag.awaited then wait.Late else ¬wait.Cleared := by
  cases hflag : flag.awaited with
  | true => exact (poll_byte hflag).1
  | false => simpa using (poll_condition hflag).1

theorem waitError_eq_none : waitError flag wait = none ↔ wait.GoesThrough flag := by
  rw [waitError, I2cWait.GoesThrough]
  have hzero := @poll_zero flag wait
  split
  · cases hflag : flag.awaited <;> simp_all
  · cases hflag : flag.awaited <;> cases wait.nack <;> simp_all

theorem waitError_eq_timeout :
    waitError flag wait = some .timeout ↔ (poll flag wait.polls).1 = 0 := by
  rw [waitError]
  split
  · simp [*]
  · split <;> cases flag <;> simp [*, nackError]

theorem timeout_awaited :
    waitError flag wait = some .timeout ∧ (poll flag wait.polls).2 = flag.awaited ↔
      flag.awaited = true ∧ wait.Late := by
  rw [waitError_eq_timeout]
  cases hflag : flag.awaited with
  | true =>
    rw [(poll_byte hflag).1, (poll_byte hflag).2]
    simp only [true_and, and_iff_left_iff_imp]
    exact .inr
  | false =>
    have hlast := (@poll_condition flag wait hflag).2
    simp only [Bool.false_eq_true, false_and, iff_false, not_and]
    intro hzero
    simp [hlast hzero]

end

inductive I2cAction : Type
  | control (c : I2cControl)
  | txBuf (byte : Byte)
  | wait (flag : I2cFlag)
  | receive (i : Nat)

def perform : I2cAction → Transfer
  | .control c => access (.control c)
  | .txBuf byte => i2cSetTxByte byte
  | .wait flag => waitFor flag
  | .receive i => i2cGetRxByte i

def performAll (actions : List I2cAction) : Transfer := actions.forM perform

def sendActions : List Byte → List I2cAction
  | [] => []
  | byte :: bytes => .txBuf byte :: .wait .ucb0TxIfg :: sendActions bytes

def addrActions (addr : List Byte) : List I2cAction :=
  [.control .setTransmitter, .control .start, .txBuf (addr.headD 0), .wait .ucTxStt,
    .wait .ucb0TxIfg] ++ sendActions addr.tail

def stopActions : List I2cAction := [.control .stop, .wait .ucTxStp]

def writeActions (addr bytes : List Byte) : List I2cAction :=
  addrActions addr ++ (sendActions bytes ++ stopActions)

def receiveActions : Nat → List I2cAction
  | 0 => []
  | i + 1 => .wait .ucb0RxIfg :: .receive (i + 1) :: receiveActions i

def readActions (addr : List Byte) (dataSize : Nat) : List I2cAction :=
  addrActions addr ++
    ([.control .clearTransmitter, .control .start, .wait .ucTxStt] ++
      (receiveActions (dataSize - 1) ++
        (stopActions ++ [.wait .ucb0RxIfg, .receive 0])))

theorem performAll_nil : performAll [] = pure () := rfl

theorem performAll_append (xs ys : List I2cAction) :
    performAll (xs ++ ys) = performAll xs >>= fun _ => performAll ys := List.forM_append

theorem performAll_cons (action : I2cAction) (actions : List I2cAction) :
    performAll (action :: actions) = perform action >>= fun _ => performAll actions := List.forM_cons

theorem sendBytes_eq (bytes : List Byte) : sendBytes bytes = performAll (sendActions bytes) := by
  induction bytes with
  | nil => rfl
  | cons byte bytes ih => rw [sendBytes, ih]; rfl

theorem receiveBytes_eq (i : Nat) : receiveBytes i = performAll (receiveActions i) := by
  induction i with
  | zero => rfl
  | succ i ih => rw [receiveBytes, ih]; rfl

theorem i2cSendAddr_eq (addr : List Byte) : i2cSendAddr addr = performAll (addrActions addr) := by
  rw [i2cSendAddr, sendBytes_eq]
  rfl

theorem i2cStopTransfer_eq : i2cStopTransfer = performAll stopActions := by
  rw [i2cStopTransfer, stopActions, performAll_cons, performAll_cons, performAll_nil,
    bind_pure_unit]
  rfl

theorem i2cWrite_eq {addr bytes : List Byte} (haddr : 0 < addr.length) (hbytes : 0 < bytes.length) :
    i2cWrite addr bytes = performAll (writeActions addr bytes) := by
  rw [writeActions, performAll_append, performAll_append, i2cWrite, i2cStartTxTransfer,
    i2cSendAddr_eq, sendBytes_eq, i2cStopTransfer_eq]
  simp [i2cAssert, haddr, hbytes]

theorem i2cRead_eq {addr : List Byte} {dataSize : Nat} (haddr : 0 < addr.length)
    (hsize : 0 < dataSize) : i2cRead addr dataSize = performAll (readActions addr dataSize) := by
  simp only [readActions, performAll_append, performAll_cons, performAll_nil, bind_pure_unit,
    i2cRead, i2cStartRxTransfer, i2cSendAddr_eq, receiveBytes_eq, i2cStopTransfer_eq, i2cAssert,
    haddr, hsize, decide_true, if_true, pure_bind, bind_assoc]
  rfl

def AllGoThrough : List I2cFlag → (Nat → I2cWait) → Prop
  | [], _ => True
  | flag :: flags, waits =>
    (waits 0).GoesThrough flag ∧ AllGoThrough flags fun k => waits (k + 1)

def waitFlags : List I2cAction → List I2cFlag
  | [] => []
  | .wait flag :: actions => flag :: waitFlags actions
  | .control _ :: actions | .txBuf _ :: actions | .receive _ :: actions => waitFlags actions

/-- The trace of the actions: they end with the first wait that fails. -/
def entries : List I2cAction → (Nat → I2cWait) → (Nat → Byte) → List I2cAccess
  | [], _, _ => []
  | .control c :: actions, waits, rxBuf => .control c :: entries actions waits rxBuf
  | .txBuf byte :: actions, waits, rxBuf => .txBuf byte :: entries actions waits rxBuf
  | .receive _ :: actions, waits, rxBuf =>
    .rxBuf (rxBuf 0) :: entries actions waits fun k => rxBuf (k + 1)
  | .wait flag :: actions, waits, rxBuf =>
    .waited flag (poll flag (waits 0).polls).2 (waitError flag (waits 0)) ::
      if (waitError flag (waits 0)).isNone then entries actions (fun k => waits (k + 1)) rxBuf
      else []

def stores : List I2cAction → (Nat → Byte) → List Byte → List Byte
  | [], _, data => data
  | .receive i :: actions, rxBuf, data =>
    stores actions (fun k => rxBuf (k + 1)) (data.set i (rxBuf 0))
  | .control _ :: actions, rxBuf, data | .txBuf _ :: actions, rxBuf, data
  | .wait _ :: actions, rxBuf, data => stores actions rxBuf data

theorem performAll_control (c : I2cControl) (actions : List I2cAction) (s : I2c) :
    performAll (.control c :: actions) s =
      performAll actions { s with trace := s.trace ++ [.control c] } := rfl

theorem performAll_txBuf (byte : Byte) (actions : List I2cAction) (s : I2c) :
    performAll (.txBuf byte :: actions) s =
      performAll actions { s with trace := s.trace ++ [.txBuf byte] } := rfl

theorem performAll_receive (i : Nat) (actions : List I2cAction) (s : I2c) :
    performAll (.receive i :: actions) s =
      performAll actions { s with
        rxBuf := fun k => s.rxBuf (k + 1)
        data := s.data.set i (s.rxBuf 0)
        trace := s.trace ++ [.rxBuf (s.rxBuf 0)] } := rfl

def afterWait (flag : I2cFlag) (s : I2c) : I2c := { s with
  waits := fun k => s.waits (k + 1)
  trace := s.trace ++ [.waited flag (poll flag (s.waits 0).polls).2
    (waitError flag (s.waits 0))] }

theorem waitFor_run (flag : I2cFlag) (s : I2c) :
    waitFor flag s =
      match waitError flag (s.waits 0) with
      | some e => .error e (s.afterWait flag)
      | none => .ok () (s.afterWait flag) := by
  change (match waitError flag (s.waits 0) with
    | some e => (throw e : Transfer)
    | none => pure ()) (s.afterWait flag) = _
  cases waitError flag (s.waits 0) <;> rfl

theorem performAll_wait (flag : I2cFlag) (actions : List I2cAction) (s : I2c) :
    performAll (.wait flag :: actions) s =
      match waitError flag (s.waits 0) with
      | some e => .error e (s.afterWait flag)
      | none => performAll actions (s.afterWait flag) := by
  change EStateM.bind (waitFor flag) _ s = _
  rw [EStateM.bind, waitFor_run]
  cases waitError flag (s.waits 0) <;> rfl

theorem performAll_run (actions : List I2cAction) (s : I2c) :
    (∃ t, performAll actions s = .ok () t ∧ AllGoThrough (waitFlags actions) s.waits ∧
        t.trace = s.trace ++ entries actions s.waits s.rxBuf ∧
        t.data = stores actions s.rxBuf s.data) ∨
      ∃ e t, performAll actions s = .error e t ∧ ¬AllGoThrough (waitFlags actions) s.waits ∧
        t.trace = s.trace ++ entries actions s.waits s.rxBuf := by
  induction actions generalizing s with
  | nil => exact .inl ⟨s, rfl, trivial, (List.append_nil _).symm, rfl⟩
  | cons action actions ih =>
    cases action with
    | control c =>
      rw [performAll_control]
      simpa [entries, stores, waitFlags] using ih { s with trace := s.trace ++ [.control c] }
    | txBuf byte =>
      rw [performAll_txBuf]
      simpa [entries, stores, waitFlags] using ih { s with trace := s.trace ++ [.txBuf byte] }
    | receive i =>
      rw [performAll_receive]
      simpa [entries, stores, waitFlags] using ih { s with
        rxBuf := fun k => s.rxBuf (k + 1)
        data := s.data.set i (s.rxBuf 0)
        trace := s.trace ++ [.rxBuf (s.rxBuf 0)] }
    | wait flag =>
      rw [performAll_wait]
      cases herror : waitError flag (s.waits 0) with
      | some e =>
        have hfail : ¬(s.waits 0).GoesThrough flag := by
          rw [← waitError_eq_none, herror]
          exact Option.some_ne_none e
        exact .inr ⟨e, _, rfl, fun h => hfail h.1, by simp [entries, herror, afterWait]⟩
      | none =>
        have hgo : (s.waits 0).GoesThrough flag := waitError_eq_none.mp herror
        simpa [entries, stores, waitFlags, herror, AllGoThrough, hgo, afterWait] using
          ih (s.afterWait flag)

end I2c

end Nsumo.Drivers
