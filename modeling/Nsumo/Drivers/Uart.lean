import Nsumo.Common.RingBuffer
import Nsumo.Lib.Run

namespace Nsumo.Drivers

open Common Lib

namespace Uart

abbrev lineFeed : Byte := 10

abbrev carriageReturn : Byte := 13

def bufferSize : Nat := 16

/-- Where a call of `_putchar` is, before the named statement. -/
inductive Point : Type
  | poll
  | disable
  | check
  | put (txOngoing : Bool)
  | start
  | enable
  deriving DecidableEq, Repr

/-- The main program: between calls of `_putchar`, or in the call for `c`, which the calls for
`outer` wait for. -/
inductive Main : Type
  | idle
  | putchar (point : Point) (c : Byte) (outer : List Byte)
  deriving DecidableEq, Repr

end Uart

open Uart

structure Uart : Type where
  txBuffer : RingBuffer
  txIfg : Bool
  txIe : Bool
  /-- Writes of `UCA0TXBUF` for which the flag is still to be raised. -/
  raising : Nat
  main : Uart.Main
  written : List Byte
  input : List Byte
  deriving DecidableEq

namespace Uart

def uartInit : Uart where
  txBuffer := .ofSize bufferSize 1
  txIfg := false
  txIe := true
  raising := 0
  main := .idle
  written := []
  input := []

def uartTxClearInterrupt (s : Uart) : Uart := { s with txIfg := false }

def uartTxEnableInterrupt (s : Uart) : Uart := { s with txIe := true }

def uartTxDisableInterrupt (s : Uart) : Uart := { s with txIe := false }

def writeTxbuf (c : Byte) (s : Uart) : Uart :=
  { s with written := s.written ++ [c], raising := s.raising + 1 }

def uartTxStart (s : Uart) : Except Assert Uart :=
  if s.txBuffer.empty then .ok s else do
    let data ← s.txBuffer.peekTail
    return writeTxbuf (data.headD 0) s

def isrUartTx (s : Uart) : Except Assert Uart := do
  assert (!s.txBuffer.empty) .isrUartTx
  -- Remove the transmitted data byte from the buffer
  let (_, txBuffer) ← s.txBuffer.get
  let s := uartTxClearInterrupt { s with txBuffer }
  if s.txBuffer.empty then return s else uartTxStart s

/-- The call of `_putchar`, up to the poll; for a line feed that is the poll of the inner call. -/
def callPutchar (c : Byte) : Main :=
  if c = lineFeed then .putchar .poll carriageReturn [c] else .putchar .poll c []

def returnPutchar : List Byte → Main
  | [] => .idle
  | c :: outer => .putchar .poll c outer

def stepPutchar (point : Point) (c : Byte) (outer : List Byte) (s : Uart) :
    Except Assert Uart :=
  match point with
  | .poll => .ok (if s.txBuffer.full then s else { s with main := .putchar .disable c outer })
  | .disable => .ok { uartTxDisableInterrupt s with main := .putchar .check c outer }
  | .check => .ok { s with main := .putchar (.put (!s.txBuffer.empty)) c outer }
  | .put txOngoing => do
    let txBuffer ← s.txBuffer.put [c]
    return { s with txBuffer, main := .putchar (if txOngoing then .enable else .start) c outer }
  | .start => do
    let s ← uartTxStart s
    return { s with main := .putchar .enable c outer }
  | .enable => .ok { uartTxEnableInterrupt s with main := returnPutchar outer }

/-- What the schedule picks next: a new call, a step of the running call, the transmit interrupt,
or the hardware that raises the flag. -/
inductive Event : Type
  | call (c : Byte)
  | main
  | interrupt
  | raise
  deriving DecidableEq, Repr

/-- An event that is not possible leaves the state as it is. -/
def step : Event → Uart → Except Assert Uart
  | .call c, s => .ok <|
    if s.main = .idle then { s with main := callPutchar c, input := s.input ++ [c] } else s
  | .main, s =>
    match s.main with
    | .idle => .ok s
    | .putchar point c outer => stepPutchar point c outer s
  | .interrupt, s => if s.txIfg && s.txIe then isrUartTx s else .ok s
  | .raise, s => .ok <|
    if 0 < s.raising then { s with raising := s.raising - 1, txIfg := true } else s

end Uart

end Nsumo.Drivers
