import Nsumo.Common.Assert

/-! The polling I2C master, over any behaviour of the bus peripheral. -/

namespace Nsumo.Drivers

open Common

/-- The results other than `I2C_RESULT_OK`, and a failing assertion. -/
inductive I2cError : Type
  | start
  | tx
  | rx
  | stop
  | timeout
  | assert
  deriving DecidableEq, Repr

/-- The bits that the driver polls: two flags that become set, two conditions that are cleared. -/
inductive I2cFlag : Type
  | ucb0TxIfg
  | ucb0RxIfg
  | ucTxStt
  | ucTxStp
  deriving DecidableEq, Repr

/-- What one wait reads: its bit at each poll, and `UCNACKIFG` after the polls. -/
structure I2cWait : Type where
  polls : Nat → Bool
  nack : Bool

inductive I2cControl : Type
  | setTransmitter
  | clearTransmitter
  | start
  | stop
  deriving DecidableEq, Repr

inductive I2cAccess : Type
  | control (c : I2cControl)
  | txBuf (byte : Byte)
  | rxBuf (byte : Byte)
  | waited (flag : I2cFlag) (last : Bool) (error : Option I2cError)
  deriving DecidableEq, Repr

structure I2c : Type where
  waits : Nat → I2cWait
  rxBuf : Nat → Byte
  data : List Byte
  trace : List I2cAccess

namespace I2c

abbrev Transfer := EStateM I2cError I2c Unit

def access (a : I2cAccess) : Transfer := modify fun s => { s with trace := s.trace ++ [a] }

def retryCount : Nat := 65535

/-- `while (!flag && retries--)` from the poll `j` on: the retries left, wrapped when the decrement
was one too many, and the bit at the last poll. -/
def pollFlag (polls : Nat → Bool) : (retries j : Nat) → Nat × Bool
  | 0, j => if polls j then (0, true) else (65535, false)
  | retries + 1, j => if polls j then (retries + 1, true) else pollFlag polls retries (j + 1)

/-- `while (condition && --retries)` with `retries + 1` retries left, from the poll `j` on. -/
def pollCondition (polls : Nat → Bool) : (retries j : Nat) → Nat × Bool
  | 0, j => if polls j then (0, true) else (1, false)
  | retries + 1, j => if polls j then pollCondition polls retries (j + 1) else (retries + 2, false)

def poll (flag : I2cFlag) (polls : Nat → Bool) : Nat × Bool :=
  match flag with
  | .ucb0TxIfg | .ucb0RxIfg => pollFlag polls retryCount 0
  | .ucTxStt | .ucTxStp => pollCondition polls (retryCount - 1) 0

def nackError : I2cFlag → I2cError
  | .ucb0TxIfg => .tx
  | .ucb0RxIfg => .rx
  | .ucTxStt => .start
  | .ucTxStp => .stop

def waitError (flag : I2cFlag) (wait : I2cWait) : Option I2cError :=
  if (poll flag wait.polls).1 = 0 then
    some .timeout
  else if wait.nack then
    some (nackError flag)
  else
    none

def waitFor (flag : I2cFlag) : Transfer := do
  let s ← get
  let wait := s.waits 0
  let error := waitError flag wait
  set { s with
    waits := fun k => s.waits (k + 1)
    trace := s.trace ++ [I2cAccess.waited flag (poll flag wait.polls).2 error] }
  match error with
  | some error => throw error
  | none => return ()

def i2cSetTxByte (byte : Byte) : Transfer := access (.txBuf byte)

def i2cWaitTxByte : Transfer := waitFor .ucb0TxIfg

def i2cWaitRxByte : Transfer := waitFor .ucb0RxIfg

def i2cSendStartCondition : Transfer := access (.control .start)

def i2cWaitStartCondition : Transfer := waitFor .ucTxStt

def i2cGetRxByte (i : Nat) : Transfer := modify fun s => { s with
  rxBuf := fun k => s.rxBuf (k + 1)
  data := s.data.set i (s.rxBuf 0)
  trace := s.trace ++ [.rxBuf (s.rxBuf 0)] }

def sendBytes : List Byte → Transfer
  | [] => return ()
  | byte :: bytes => do
    i2cSetTxByte byte
    i2cWaitTxByte
    sendBytes bytes

def i2cSendAddr (addr : List Byte) : Transfer := do
  access (.control .setTransmitter)
  i2cSendStartCondition
  -- The first byte must be in `UCB0TXBUF` before the start condition is waited for
  i2cSetTxByte (addr.headD 0)
  i2cWaitStartCondition
  i2cWaitTxByte
  sendBytes addr.tail

def i2cStartTxTransfer (addr : List Byte) : Transfer := i2cSendAddr addr

def i2cStartRxTransfer (addr : List Byte) : Transfer := do
  i2cSendAddr addr
  access (.control .clearTransmitter)
  i2cSendStartCondition
  i2cWaitStartCondition

def i2cStopTransfer : Transfer := do
  access (.control .stop)
  waitFor .ucTxStp

def i2cAssert (expression : Bool) : Transfer :=
  if expression then return () else throw .assert

def i2cWrite (addr data : List Byte) : Transfer := do
  i2cAssert (0 < addr.length)
  i2cAssert (0 < data.length)
  i2cStartTxTransfer addr
  sendBytes data
  i2cStopTransfer

/-- The loop that stores into `data[i]` down to `data[1]`. -/
def receiveBytes : Nat → Transfer
  | 0 => return ()
  | i + 1 => do
    i2cWaitRxByte
    i2cGetRxByte (i + 1)
    receiveBytes i

def i2cRead (addr : List Byte) (dataSize : Nat) : Transfer := do
  i2cAssert (0 < addr.length)
  i2cAssert (0 < dataSize)
  i2cStartRxTransfer addr
  receiveBytes (dataSize - 1)
  -- Must stop before last byte
  i2cStopTransfer
  i2cWaitRxByte
  i2cGetRxByte 0

end I2c

end Nsumo.Drivers
