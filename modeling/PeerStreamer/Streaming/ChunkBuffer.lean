import PeerStreamer.Streaming.Chunk

/-!
# Chunk buffers and sets of chunk ids

`chunk_buffer` and `chunkID_set` of GRAPES are not part of the repository: `ChunkBuffer` and
`ChunkIDSet` have the operations, the `Lawful…` classes what the code relies on, and `ChunkList` and
`IDList` are concrete ones.
-/

namespace PeerStreamer

/-- The operations of `chunkbuffer.h`: `cb_get_chunks`, `cb_get_chunk` and `cb_add_chunk`, which
answers with a negative number if it does not accept the chunk. -/
class ChunkBuffer (B : Type) where
  getChunks : B → List Chunk
  getChunk : B → ℤ → Option Chunk
  addChunk : B → Chunk → B × ℤ

/-- The operations of `chunkidset.h`; `ids` are the answers of `chunkID_set_get_chunk` for the
positions up to `chunkID_set_size`. -/
class ChunkIDSet (C : Type) where
  init : C
  ids : C → List ℤ
  addChunk : C → ℤ → C
  getEarliest : C → ℤ
  getLatest : C → ℤ

/-- The ids in a buffer. -/
def bufferIds {B : Type} [ChunkBuffer B] (b : B) : List ℤ := (ChunkBuffer.getChunks b).map Chunk.id

/-- A buffer is searched by id; a chunk that is accepted is there afterwards, possibly in place of
others, and one that was there before displaces none. -/
class LawfulChunkBuffer (B : Type) [ChunkBuffer B] : Prop where
  getChunk_mem : ∀ (b : B) (i : ℤ) (c : Chunk), ChunkBuffer.getChunk b i = some c →
    c ∈ ChunkBuffer.getChunks b ∧ c.id = i
  getChunk_eq_none : ∀ (b : B) (i : ℤ), ChunkBuffer.getChunk b i = none → i ∉ bufferIds b
  mem_accepted : ∀ (b : B) (c : Chunk), 0 ≤ (ChunkBuffer.addChunk b c).2 →
    c.id ∈ bufferIds (ChunkBuffer.addChunk b c).1
  accepted_subset : ∀ (b : B) (c : Chunk) (i : ℤ), 0 ≤ (ChunkBuffer.addChunk b c).2 →
    i ∈ bufferIds (ChunkBuffer.addChunk b c).1 → i = c.id ∨ i ∈ bufferIds b
  accepted_again : ∀ (b : B) (c : Chunk) (i : ℤ), 0 ≤ (ChunkBuffer.addChunk b c).2 →
    c.id ∈ bufferIds b → i ∈ bufferIds b → i ∈ bufferIds (ChunkBuffer.addChunk b c).1

/-- A buffer holds only chunks that were added to it, as they were, and each that was accepted. -/
class StoringChunkBuffer (B : Type) [ChunkBuffer B] : Prop where
  mem_addChunk : ∀ (b : B) (c d : Chunk), d ∈ ChunkBuffer.getChunks (ChunkBuffer.addChunk b c).1 →
    d = c ∨ d ∈ ChunkBuffer.getChunks b
  mem_self : ∀ (b : B) (c : Chunk), 0 ≤ (ChunkBuffer.addChunk b c).2 →
    c ∈ ChunkBuffer.getChunks (ChunkBuffer.addChunk b c).1

/-- A set is finite, and has a first and a last id. -/
class LawfulChunkIDSet (C : Type) [ChunkIDSet C] : Prop where
  nodup_ids : ∀ s : C, (ChunkIDSet.ids s).Nodup
  ids_init : ChunkIDSet.ids (ChunkIDSet.init : C) = []
  mem_addChunk : ∀ (s : C) (i j : ℤ),
    i ∈ ChunkIDSet.ids (ChunkIDSet.addChunk s j) ↔ i ∈ ChunkIDSet.ids s ∨ i = j
  getEarliest_le : ∀ (s : C) (i : ℤ), i ∈ ChunkIDSet.ids s → ChunkIDSet.getEarliest s ≤ i
  le_getLatest : ∀ (s : C) (i : ℤ), i ∈ ChunkIDSet.ids s → i ≤ ChunkIDSet.getLatest s

/-- The first and the last id of a set that is not empty are in it. -/
class ExactChunkIDSet (C : Type) [ChunkIDSet C] : Prop where
  getEarliest_mem : ∀ s : C, ChunkIDSet.ids s ≠ [] → ChunkIDSet.getEarliest s ∈ ChunkIDSet.ids s
  getLatest_mem : ∀ s : C, ChunkIDSet.ids s ≠ [] → ChunkIDSet.getLatest s ∈ ChunkIDSet.ids s

attribute [simp] LawfulChunkIDSet.ids_init LawfulChunkIDSet.mem_addChunk

section Operations

variable {B C : Type} [ChunkBuffer B] [ChunkIDSet C]

/-- `chunkID_set_size` -/
def chunkIDSetSize (s : C) : ℕ := (ChunkIDSet.ids s).length

/-- Adding every id of a list. -/
def chunkIDSetAddAll (s : C) (is : List ℤ) : C := is.foldl ChunkIDSet.addChunk s

/-- `chunk_buffer_to_idset` -/
def chunkBufferToIdset (b : B) : C := chunkIDSetAddAll ChunkIDSet.init (bufferIds b)

variable [LawfulChunkIDSet C]

lemma mem_chunkIDSetAddAll {s : C} {is : List ℤ} {i : ℤ} :
    i ∈ ChunkIDSet.ids (chunkIDSetAddAll s is) ↔ i ∈ ChunkIDSet.ids s ∨ i ∈ is := by
  rw [chunkIDSetAddAll]
  induction is generalizing s with
  | nil => simp
  | cons j is ih => simp [ih, or_assoc]

/-- A new id is added to the ones that are there. -/
lemma ids_addChunk_perm {s : C} {is : List ℤ} {i : ℤ} (h : (ChunkIDSet.ids s).Perm is)
    (hi : i ∉ is) : (ChunkIDSet.ids (ChunkIDSet.addChunk s i)).Perm (is ++ [i]) := by
  have hnodup : (is ++ [i]).Nodup :=
    List.nodup_append.mpr ⟨h.nodup_iff.mp (LawfulChunkIDSet.nodup_ids s), List.nodup_singleton i,
      fun a ha b hb he => hi (List.mem_singleton.mp hb ▸ he ▸ ha)⟩
  refine (List.perm_ext_iff_of_nodup (LawfulChunkIDSet.nodup_ids _) hnodup).mpr fun j => ?_
  rw [LawfulChunkIDSet.mem_addChunk, h.mem_iff, List.mem_append, List.mem_singleton]

/-- The set made of a buffer has the ids of its chunks. -/
lemma mem_chunkBufferToIdset {b : B} {i : ℤ} :
    i ∈ ChunkIDSet.ids (chunkBufferToIdset b : C) ↔ i ∈ bufferIds b := by
  rw [chunkBufferToIdset, mem_chunkIDSetAddAll]
  simp

end Operations

/-! ## Concrete ones -/

/-- Ids in the order they were added. -/
abbrev IDList : Type := { l : List ℤ // l.Nodup }

instance : ChunkIDSet IDList where
  init := ⟨[], List.nodup_nil⟩
  ids s := s.1
  addChunk s i := ⟨s.1.insert i, s.2.insert⟩
  getEarliest s := s.1.min?.getD (-1)
  getLatest s := s.1.max?.getD (-1)

instance : LawfulChunkIDSet IDList where
  nodup_ids s := s.2
  ids_init := rfl
  mem_addChunk s i j := by simp [ChunkIDSet.ids, ChunkIDSet.addChunk, or_comm]
  getEarliest_le s i h := by
    obtain ⟨m, hm⟩ := Option.isSome_iff_exists.mp (List.isSome_min?_of_mem (l := s.1) h)
    simpa [ChunkIDSet.getEarliest, hm] using (List.min?_eq_some_iff.mp hm).2 i h
  le_getLatest s i h := by
    obtain ⟨m, hm⟩ := Option.isSome_iff_exists.mp (List.isSome_max?_of_mem (l := s.1) h)
    simpa [ChunkIDSet.getLatest, hm] using (List.max?_eq_some_iff.mp hm).2 i h

instance : ExactChunkIDSet IDList where
  getEarliest_mem s h := by
    obtain ⟨m, hm⟩ := Option.isSome_iff_exists.mp (List.isSome_min?_iff.mpr h)
    have hearliest : ChunkIDSet.getEarliest s = m := congrArg (·.getD (-1)) hm
    exact hearliest ▸ List.min?_mem hm
  getLatest_mem s h := by
    obtain ⟨m, hm⟩ := Option.isSome_iff_exists.mp (List.isSome_max?_iff.mpr h)
    have hlatest : ChunkIDSet.getLatest s = m := congrArg (·.getD (-1)) hm
    exact hlatest ▸ List.max?_mem hm

/-- The last `size` chunks that were new, the oldest first. -/
structure ChunkList where
  size : ℕ
  chunks : List Chunk
  deriving DecidableEq, Repr

instance : ChunkBuffer ChunkList where
  getChunks b := b.chunks
  getChunk b i := b.chunks.find? (·.id = i)
  addChunk b c :=
    if c.id ∈ b.chunks.map Chunk.id ∨ b.size = 0 then (b, -1)
    else ({ b with chunks := b.chunks.drop (b.chunks.length + 1 - b.size) ++ [c] }, 0)

instance : LawfulChunkBuffer ChunkList where
  getChunk_mem b i c h :=
    ⟨List.mem_of_find?_eq_some h, by simpa using List.find?_some h⟩
  getChunk_eq_none b i h := by
    simpa [ChunkBuffer.getChunk, bufferIds, ChunkBuffer.getChunks] using h
  mem_accepted b c h := by
    simp only [ChunkBuffer.addChunk] at h ⊢
    split_ifs at h ⊢
    · simp at h
    · simp [bufferIds, ChunkBuffer.getChunks]
  accepted_subset b c i h hi := by
    simp only [ChunkBuffer.addChunk] at h hi
    split_ifs at h hi
    · simp at h
    · simp only [bufferIds, ChunkBuffer.getChunks, List.map_append, List.mem_append] at hi
      rcases hi with hi | hi
      · rw [List.map_drop] at hi
        exact Or.inr (List.mem_of_mem_drop hi)
      · exact Or.inl (by simpa using hi)
  accepted_again b c i h hc _ := by
    have hthere : c.id ∈ b.chunks.map Chunk.id := hc
    simp [ChunkBuffer.addChunk, hthere] at h

instance : StoringChunkBuffer ChunkList where
  mem_addChunk b c d h := by
    simp only [ChunkBuffer.addChunk] at h
    split_ifs at h
    · exact Or.inr h
    · rcases List.mem_append.mp h with h | h
      · exact Or.inr (List.mem_of_mem_drop h)
      · exact Or.inl (List.mem_singleton.mp h)
  mem_self b c h := by
    simp only [ChunkBuffer.addChunk] at h ⊢
    split_ifs at h ⊢
    · simp at h
    · simp [ChunkBuffer.getChunks]

end PeerStreamer
