import CydMonitor.Cpp.Decoder

/-!
# The device framer (`protocol/core/cpp/protocol.cpp`)

A `Result` is the outcome of decoding the frame that was taken.
-/

namespace CydMonitor.Cpp

open BigEndian

structure FrameStream where
  buffer : List UInt8 := []
  droppedBytes : ℕ := 0

namespace FrameStream

def push (s : FrameStream) (bytes : List UInt8) : FrameStream :=
  { s with buffer := s.buffer ++ bytes }

def dropLeadingByte (s : FrameStream) : FrameStream := match s.buffer with
  | [] => s
  | _ :: buffer => { buffer, droppedBytes := s.droppedBytes + 1 }

/-- The loop of `Next` from a buffer and a count of dropped bytes. -/
def scanNext (droppedBytes : ℕ) : List UInt8 → Option (Except Error Decoded) × FrameStream
  | b0 :: b1 :: rest =>
    let buffer := b0 :: b1 :: rest
    let n := value [b0, b1]
    if n < 5 ∨ n > kMaxFrameBytes - 2 then scanNext (droppedBytes + 1) (b1 :: rest)
    else if buffer.length < n + 2 then (none, { buffer, droppedBytes })
    else
      let frame := buffer.take (n + 2)
      let crc := value (frame.drop (frame.length - 4))
      if (crc32 ((frame.drop 2).take (n - 4))).toNat ≠ crc then
        scanNext (droppedBytes + 1) (b1 :: rest)
      else (some (decode frame), { buffer := buffer.drop (n + 2), droppedBytes })
  | buffer => (none, { buffer, droppedBytes })

def next (s : FrameStream) : Option (Except Error Decoded) × FrameStream :=
  scanNext s.droppedBytes s.buffer

end FrameStream

end CydMonitor.Cpp
