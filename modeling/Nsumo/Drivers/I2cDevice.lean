import Nsumo.Drivers.I2c
import Nsumo.Lib.Registers

namespace Nsumo.Drivers

open Common

structure I2cDevice : Type where
  reg : Byte → Byte
  pointer : Byte
  transmitter : Bool
  /-- The next byte sent is an address. -/
  selecting : Bool

namespace I2cDevice

def send (byte : Byte) (d : I2cDevice) : I2cDevice :=
  if d.selecting then
    { d with pointer := byte, selecting := false }
  else
    { d with reg := Function.update d.reg d.pointer byte, pointer := d.pointer + 1 }

def control (d : I2cDevice) : I2cControl → I2cDevice
  | .setTransmitter => { d with transmitter := true }
  | .clearTransmitter => { d with transmitter := false }
  | .start => { d with selecting := d.transmitter }
  | .stop => d

def see (d : I2cDevice) : I2cAccess → I2cDevice
  | .control c => d.control c
  | .txBuf byte => d.send byte
  | .rxBuf _ => { d with pointer := d.pointer + 1 }
  | .waited .. => d

/-- Every byte read from `UCB0RXBUF` is the register that the device has got to. -/
def Answers : I2cDevice → List I2cAccess → Prop
  | _, [] => True
  | d, a :: trace => (∀ byte, a = .rxBuf byte → byte = d.reg d.pointer) ∧ Answers (d.see a) trace

end I2cDevice

/-- A write that succeeds and then a read of the same registers that succeeds give the array back,
whatever the device and however long the waits of the transfers. -/
def ReadsBack (addr : Byte) (data : List Byte) : Prop :=
  ∀ (d : I2cDevice) (s s' t t' : I2c),
    I2c.i2cWrite [addr] data { s with trace := [] } = .ok () t →
    I2c.i2cRead [addr] data.length { s' with trace := [] } = .ok () t' →
    s'.data.length = data.length → I2cDevice.Answers (t.trace.foldl I2cDevice.see d) t'.trace →
      t'.data = data

end Nsumo.Drivers
