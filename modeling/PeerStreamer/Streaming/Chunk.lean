import PeerStreamer.NetHelper.NetMsg

/-!
# Chunks

`struct chunk` of GRAPES, as the streaming code uses it, and the two functions of `output-grapes.c`
that copy and release one.
-/

namespace PeerStreamer

/-- `struct chunk`.  `data` and `attributes` are the blocks the pointers point to. -/
structure Chunk where
  id : ℤ
  size : ℕ
  timestamp : ℕ
  attributesSize : ℤ
  data : Bytes
  attributes : Bytes
  deriving DecidableEq, Repr

/-- `chunk_clone`: the id, the size and a copy of the first `size` bytes. -/
def chunkClone (dst src : Chunk) : Chunk :=
  { dst with id := src.id, size := src.size, data := src.data.take src.size }

/-- `chunk_deinit`: the data is freed, and the id marks the slot as empty. -/
def chunkDeinit (c : Chunk) : Chunk := { c with id := -1 }

/-- The part of a chunk that `chunk_clone` copies. -/
def Chunk.content (c : Chunk) : ℤ × ℕ × Bytes := (c.id, c.size, c.data)

/-- The part it does not. -/
def Chunk.extra (c : Chunk) : ℕ × ℤ × Bytes := (c.timestamp, c.attributesSize, c.attributes)

lemma Chunk.eq_iff {c d : Chunk} : c = d ↔ c.content = d.content ∧ c.extra = d.extra := by
  cases c
  cases d
  simp [content, extra]
  tauto

@[simp] lemma chunkClone_id (dst src : Chunk) : (chunkClone dst src).id = src.id := rfl

@[simp] lemma chunkClone_extra (dst src : Chunk) : (chunkClone dst src).extra = dst.extra := rfl

@[simp] lemma chunkDeinit_id (c : Chunk) : (chunkDeinit c).id = -1 := rfl

@[simp] lemma chunkDeinit_extra (c : Chunk) : (chunkDeinit c).extra = c.extra := rfl

/-- The block of data is as long as `size` says. -/
lemma chunkClone_content {dst src : Chunk} (h : src.data.length = src.size) :
    (chunkClone dst src).content = src.content := by
  simp [chunkClone, Chunk.content, List.take_of_length_le h.le]

end PeerStreamer
