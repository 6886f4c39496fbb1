import Nsumo.Common.Assert
import Nsumo.Lib.Memory

namespace Nsumo.Common

open Lib.Memory

structure RingBuffer : Type where
  buffer : List Byte
  bufferSize : Nat
  elemSize : Nat
  headIdx : Nat
  tailIdx : Nat
  full : Bool
  deriving DecidableEq, Repr

namespace RingBuffer

def ofSize (size elemSize : Nat) : RingBuffer where
  buffer := List.replicate (size * elemSize) 0
  bufferSize := size
  elemSize := elemSize
  headIdx := 0
  tailIdx := 0
  full := false

def empty (rb : RingBuffer) : Bool := !rb.full && rb.headIdx == rb.tailIdx

def nextIdx (rb : RingBuffer) (idx : Nat) : Nat :=
  let idx := (idx + 1) % 256
  if idx = rb.bufferSize then 0 else idx

def get (rb : RingBuffer) : Except Assert (List Byte × RingBuffer) := do
  assert (!rb.empty) .ringBufferGet
  let data := load (rb.tailIdx * rb.elemSize) rb.elemSize rb.buffer
  return (data, { rb with tailIdx := rb.nextIdx rb.tailIdx, full := false })

def put (rb : RingBuffer) (data : List Byte) : Except Assert RingBuffer := do
  let rb ← if rb.full then Prod.snd <$> rb.get else pure rb
  let buffer := store (rb.headIdx * rb.elemSize) (data.take rb.elemSize) rb.buffer
  let headIdx := rb.nextIdx rb.headIdx
  return { rb with buffer, headIdx, full := rb.full || headIdx == rb.tailIdx }

def peekTail (rb : RingBuffer) : Except Assert (List Byte) := do
  assert (!rb.empty) .ringBufferPeekTail
  return load (rb.tailIdx * rb.elemSize) rb.elemSize rb.buffer

def count (rb : RingBuffer) : Nat :=
  if rb.full then
    rb.bufferSize
  else if rb.tailIdx ≤ rb.headIdx then
    (rb.headIdx - rb.tailIdx) % 256
  else
    ((rb.bufferSize - rb.tailIdx) + rb.headIdx + 1) % 256

def peekHead (rb : RingBuffer) (offset : Nat) : Except Assert (List Byte) := do
  assert (offset < rb.count) .ringBufferPeekHead
  -- `head_idx` is the next empty slot, hence the 1
  let offsetIdx : Int := rb.headIdx - 1 - offset
  let offsetIdx := if offsetIdx < 0 then rb.bufferSize + offsetIdx else offsetIdx
  return load ((offsetIdx % 256).toNat * rb.elemSize) rb.elemSize rb.buffer

end RingBuffer

end Nsumo.Common
