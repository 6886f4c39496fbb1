import Nsumo.Drivers.Vl53l0xInit

/-! The sensors as they are wired up: where each of them listens, and its stop variable. -/

namespace Nsumo.Drivers

open Common

namespace Vl53l0x

/-- Any bus decides how the transfers end and what they read, but for the stop variables. -/
structure Wired (δ : Type) : Type where
  dev : δ
  board : BoardState
  slaveAddress : Byte
  /-- The address of each sensor; none in hardware standby. -/
  addresses : Vl53l0xIdx → Option Byte
  stops : Vl53l0xIdx → Byte
  stopWrites : List (Vl53l0xIdx × Byte)
  snapshots : List (Vl53l0xIdx → Option Byte)

namespace Wired

variable {δ : Type}

def standby (dev : δ) (board : BoardState) (stops : Vl53l0xIdx → Byte) : Wired δ where
  dev := dev
  board := board
  slaveAddress := 0
  addresses _ := none
  stops := stops
  stopWrites := []
  snapshots := [fun _ => none]

def awake (ports : PortRegs) (idx : Vl53l0xIdx) : Bool :=
  (PortRegs.ioGetCurrentConfig (xshutIo idx) ports).out == .high

def listenAt (addresses : Vl53l0xIdx → Option Byte) (w : Wired δ) : Wired δ :=
  { w with addresses, snapshots := addresses :: w.snapshots }

/-- A sensor whose pin goes high wakes at the default address. -/
def setPorts (ports : PortRegs) (w : Wired δ) : Wired δ :=
  listenAt (fun idx =>
    if awake ports idx then some ((w.addresses idx).getD vl53l0xDefaultAddress) else none)
    { w with board.ports := ports }

def listeners (w : Wired δ) : List Vl53l0xIdx :=
  [.front, .left, .right, .frontLeft, .frontRight].filter fun idx =>
    w.addresses idx = some w.slaveAddress

def perform (reg : Byte) (data : List Byte) (w : Wired δ) : Wired δ :=
  if reg = regSlaveDeviceAddress then
    w.listenAt fun idx => if idx ∈ w.listeners then some (data.headD 0) else w.addresses idx
  else if reg = 0x91 then
    { w with
      stops := fun idx => if idx ∈ w.listeners then data.headD 0 else w.stops idx
      stopWrites := w.listeners.map (fun idx => (idx, data.headD 0)) ++ w.stopWrites }
  else
    w

def answer (reg : Byte) (error : Option I2cError) (data : List Byte) (w : Wired δ) : List Byte :=
  if error = none ∧ reg = 0x91 then
    (w.listeners.head?.map fun idx => [w.stops idx]).getD data
  else
    data

def bus (bus : Bus δ) : Bus (Wired δ) where
  elapse w := ((bus.elapse w.dev).1, { w with dev := (bus.elapse w.dev).2 })
  setSlaveAddress addr w :=
    { w with dev := bus.setSlaveAddress addr w.dev, slaveAddress := addr }
  write reg data w :=
    let (error, dev) := bus.write reg data w.dev
    (error, if error = none then perform reg data { w with dev } else { w with dev })
  read reg data w :=
    let (error, data, dev) := bus.read reg data w.dev
    (error, w.answer reg error data, { w with dev })

def wiredBoard : Board (Wired δ) where
  ports w := w.board.ports
  setPorts := setPorts
  interrupts w := w.board.interrupts
  setInterrupts interrupts w := { w with board.interrupts := interrupts }
  i2cInitialized w := w.board.i2cInitialized
  setI2cInitialized w := { w with board.i2cInitialized := true }

end Wired

def wired {δ : Type} (s : Vl53l0x δ) (board : BoardState) (stops : Vl53l0xIdx → Byte) :
    Vl53l0x (Wired δ) where
  stopVariable := s.stopVariable
  statusMultiple := s.statusMultiple
  initialized := s.initialized
  latestRanges := s.latestRanges
  dev := .standby s.dev board stops

end Vl53l0x

end Nsumo.Drivers
