import TuningBridge.Bytes

/-!
# Chunks

A write that is longer than a bus frame is cut into chunks of whole words.  Each chunk is addressed
to the register behind the words before it, as the chip's write pointer moves.
-/

namespace TuningBridge

/-- A part of a write and the register it starts at. -/
structure Chunk where
  address : UInt16
  payload : Bytes
  deriving DecidableEq, Repr

namespace Chunk

/-- The most words in one chunk: more than a 16-bit address steps over never go into one frame. -/
def maxWords : Nat := 65535

/-- The whole words that fit into a frame behind its header. -/
def wordsPerFrame (frameBytes headerBytes : Nat) : Nat := (frameBytes - headerBytes) / 4

/-- Cut data into chunks of `words + 1` words and a last one that is no longer; addresses wrap
around. -/
def split (words : Nat) (address : UInt16) (data : Bytes) : List Chunk :=
  let length := 4 * (words + 1)
  if (data.drop length).isEmpty then
    if data.isEmpty then [] else [⟨address, data⟩]
  else
    ⟨address, data.take length⟩ ::
      split words (address + UInt16.ofNat (words + 1)) (data.drop length)
termination_by data.length
decreasing_by
  simp_all [List.isEmpty_iff]
  omega

/-- The chunks of a write.  Where no word fits into a frame the data stays in one chunk. -/
def ofWrite (address : UInt16) (data : Bytes) (words : Nat) : List Chunk :=
  match min words maxWords with
  | 0 => if data.isEmpty then [] else [⟨address, data⟩]
  | words + 1 => split words address data

end Chunk

end TuningBridge
