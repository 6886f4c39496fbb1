import Nsumo.Common.RingBuffer

namespace Nsumo.Drivers

open Common

/-- A command is the raw byte the decoder took from a message, named or not. -/
abbrev IrCmd := Byte

namespace IrCmd

abbrev zero : IrCmd := 0x98#8
abbrev one : IrCmd := 0xA2#8
abbrev two : IrCmd := 0x62#8
abbrev three : IrCmd := 0xE2#8
abbrev four : IrCmd := 0x22#8
abbrev five : IrCmd := 0x02#8
abbrev six : IrCmd := 0xC2#8
abbrev seven : IrCmd := 0xE0#8
abbrev eight : IrCmd := 0xA8#8
abbrev nine : IrCmd := 0x90#8
abbrev star : IrCmd := 0x68#8
abbrev hash : IrCmd := 0xB0#8
abbrev up : IrCmd := 0x18#8
abbrev down : IrCmd := 0x4A#8
abbrev left : IrCmd := 0x10#8
abbrev right : IrCmd := 0x5A#8
abbrev ok : IrCmd := 0x38#8
abbrev none : IrCmd := 0xFF#8

end IrCmd

structure IrRemote : Type where
  irCmdBuffer : RingBuffer
  irMessage : BitVec 32
  timerMs : Nat
  pulseCount : Nat
  timerRunning : Bool
  /-- Every byte handed to `ring_buffer_put`, oldest first. -/
  enqueued : List Byte
  deriving DecidableEq

namespace IrRemote

def init : IrRemote where
  irCmdBuffer := RingBuffer.ofSize 10 1
  irMessage := 0
  timerMs := 0
  pulseCount := 0
  timerRunning := false
  enqueued := []

def irTimerStart (ir : IrRemote) : IrRemote := { ir with timerRunning := true, timerMs := 0 }

def irTimerStop (ir : IrRemote) : IrRemote := { ir with timerRunning := false }

def isValidPulse (pulse ms : Nat) : Bool :=
  if pulse = 1 then
    ms == 0
  else if pulse = 2 then
    ms < 10
  else if 3 ≤ pulse ∧ pulse ≤ 34 then
    ms < 5
  else if pulse = 35 then
    ms < 50
  else if pulse = 36 then
    ms < 5
  else if pulse ≥ 37 ∧ pulse % 2 = 1 then
    ms < 110
  else if pulse ≥ 37 then
    ms < 5
  else
    false

def isBitPulse (pulse : Nat) : Bool := 3 ≤ pulse && pulse ≤ 34

def isMessagePulse (pulse : Nat) : Bool := pulse == 34 || (pulse > 36 && pulse % 2 == 1)

/-- `decoded.cmd`: the second byte of the union, little-endian. -/
def decodedCmd (raw : BitVec 32) : Byte := raw.extractLsb' 8 8

def decodePulse (ir : IrRemote) : IrRemote :=
  let ir := { ir with pulseCount := (ir.pulseCount + 1) % 65536 }
  if !isValidPulse ir.pulseCount ir.timerMs then
    -- Assume start of new message
    { ir with pulseCount := 1, irMessage := 0 }
  else if isBitPulse ir.pulseCount then
    { ir with irMessage := (ir.irMessage <<< 1) + (if ir.timerMs ≥ 2 then 1 else 0) }
  else
    ir

def isrPulse (ir : IrRemote) : Except Assert IrRemote := do
  let ir := decodePulse ir.irTimerStop
  if isMessagePulse ir.pulseCount then
    let cmd := decodedCmd ir.irMessage
    let irCmdBuffer ← ir.irCmdBuffer.put [cmd]
    return { ir with irCmdBuffer, enqueued := ir.enqueued ++ [cmd] }.irTimerStart
  else
    return ir.irTimerStart

def isrTimerA0 (ir : IrRemote) : IrRemote :=
  if ir.timerMs < 150 then
    { ir with timerMs := ir.timerMs + 1 }
  else
    { ir.irTimerStop with pulseCount := 0, irMessage := 0, timerMs := 0 }

/-- With the interrupt of the pin disabled from the check to the end. -/
def irRemoteGetCmd (ir : IrRemote) : Except Assert (IrCmd × IrRemote) := do
  if !ir.irCmdBuffer.empty then
    let (data, irCmdBuffer) ← ir.irCmdBuffer.get
    return (data.headD IrCmd.none, { ir with irCmdBuffer })
  else
    return (IrCmd.none, ir)

/-- The two interrupts of the decoder.  A timer interrupt may still be pending when the timer has
just been stopped, so either may come at any time. -/
inductive Irq : Type
  | pulse
  | timer
  deriving DecidableEq, Repr

def handle : Irq → IrRemote → Except Assert IrRemote
  | .pulse, ir => ir.isrPulse
  | .timer, ir => .ok ir.isrTimerA0

end IrRemote

end Nsumo.Drivers
