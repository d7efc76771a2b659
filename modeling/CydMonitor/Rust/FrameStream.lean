import CydMonitor.Rust.Decoder

/-!
# The Host framer (`host/protocol/src/lib.rs`)

`dropped_bytes` counts bytes of the stream and is a natural number.
-/

namespace CydMonitor.Rust

open BigEndian

structure FrameStream where
  buffer : List UInt8 := []
  droppedBytes : ℕ := 0

namespace FrameStream

def push (s : FrameStream) (bytes : List UInt8) : FrameStream :=
  { s with buffer := s.buffer ++ bytes }

/-- The loop of `next_frame` from a buffer and a count of dropped bytes. -/
def scanFrame (droppedBytes : ℕ) : List UInt8 → Option (List UInt8) × FrameStream
  | b0 :: b1 :: rest =>
    let buffer := b0 :: b1 :: rest
    let n := value [b0, b1]
    if ¬(5 ≤ n ∧ n ≤ maxFrameBytes - 2) then scanFrame (droppedBytes + 1) (b1 :: rest)
    else if buffer.length < n + 2 then (none, { buffer, droppedBytes })
    else
      let crc := value ((buffer.drop (n + 2 - 4)).take 4)
      if (crc32 ((buffer.drop 2).take (n + 2 - 4 - 2))).toNat ≠ crc then
        scanFrame (droppedBytes + 1) (b1 :: rest)
      else (some (buffer.take (n + 2)), { buffer := buffer.drop (n + 2), droppedBytes })
  | buffer => (none, { buffer, droppedBytes })

def nextFrame (s : FrameStream) : Option (List UInt8) × FrameStream :=
  scanFrame s.droppedBytes s.buffer

end FrameStream

end CydMonitor.Rust
