import PeerStreamer.Foundation.Window
import PeerStreamer.Foundation.Run
import PeerStreamer.Streaming.Chunk

/-!
# The output buffer

`output-grapes.c`: chunks are delivered in any order and written in the order of their ids.  They
wait in a ring of `buff_length` slots, where the slot `head` belongs to the id `next_out`.

The functions answer with their return value and the chunks passed to `chunk_write`.
-/

namespace PeerStreamer

/-- `struct chunk_output` without the stream; `buff` is the array, of `buffLength` slots. -/
structure ChunkOutput where
  buff : ℕ → Chunk
  buffLength : ℕ
  head : ℕ
  reorder : Bool
  nextOut : ℤ

/-- `output_create`, with the configured values of `outbuff_size` and `outbuff_reorder`; the array
comes from `malloc`, and `memory` is what it holds. -/
def outputCreate (outbuffSize outbuffReorder : ℤ) (memory : ℕ → Chunk) : ChunkOutput where
  buff i := { memory i with id := -1 }
  buffLength := (if outbuffSize > 0 then outbuffSize else 75).toNat % 2 ^ 16
  head := 0
  reorder := outbuffReorder ≠ 0
  nextOut := -1

namespace ChunkOutput

/-- Reading a slot. -/
def slot (o : ChunkOutput) (p : ℤ) : Eval Chunk :=
  if 0 ≤ p ∧ p < o.buffLength then .ok (o.buff p.toNat) else .error .outOfBounds

/-- Writing a slot that has been read. -/
def store (o : ChunkOutput) (p : ℤ) (c : Chunk) : ChunkOutput :=
  { o with buff := Function.update o.buff p.toNat c }

/-- The slot at the head holds a chunk. -/
def Ready (o : ChunkOutput) : Prop := 0 ≤ (o.buff o.head).id

instance (o : ChunkOutput) : Decidable o.Ready := inferInstanceAs (Decidable (_ ≤ _))

/-- How many slots hold a chunk. -/
def occupied (o : ChunkOutput) : ℕ :=
  ((Finset.range o.buffLength).filter fun p => 0 ≤ (o.buff p).id).card

end ChunkOutput

/-- `output_send_next`. -/
def outputSendNext (o : ChunkOutput) : Eval (ChunkOutput × ℤ × List Chunk) := do
  let c ← o.slot o.head
  let (sent, res, written) :=
    if c.id ≥ 0 then (o.store o.head (chunkDeinit c), (1 : ℤ), [c]) else (o, 0, [])
  let nextOut ← cint (sent.nextOut + 1)
  let head ← cmod (sent.head + 1) sent.buffLength
  return ({ sent with nextOut, head := head.toNat }, res, written)

/-- `output_buff_flush`. -/
def outputBuffFlush (o : ChunkOutput) : ℕ → Eval (ChunkOutput × ℤ × List Chunk)
  | 0 => return (o, 0, [])
  | len + 1 => do
      let (o, res, written) ← outputSendNext o
      let (o, res', written') ← outputBuffFlush o len
      return (o, res + res', written ++ written')

/-- What a step of `output_send_next` leaves, if there is one. -/
lemma outputSendNext_eq_ok {o o' : ChunkOutput} {r : ℤ × List Chunk}
    (h : outputSendNext o = .ok (o', r)) :
    o.head < o.buffLength
      ∧ o'.buff = (if 0 ≤ (o.buff o.head).id
          then Function.update o.buff o.head (chunkDeinit (o.buff o.head)) else o.buff)
      ∧ o'.buffLength = o.buffLength := by
  by_cases hhead : o.head < o.buffLength
  · have hslot : o.slot o.head = .ok (o.buff o.head) := by
      simp [ChunkOutput.slot, hhead]
    rw [outputSendNext, hslot] at h
    by_cases hid : 0 ≤ (o.buff o.head).id
    · simp [hid, Eval.bind_eq_ok, ChunkOutput.store] at h
      obtain ⟨n, -, m, -, rfl, -⟩ := h
      simp [hid, hhead]
    · simp [hid, Eval.bind_eq_ok] at h
      obtain ⟨n, -, m, -, rfl, -⟩ := h
      simp [hid, hhead]
  · have hslot : o.slot o.head = .error .outOfBounds := by
      simp [ChunkOutput.slot, hhead]
    rw [outputSendNext, hslot] at h
    cases h

/-- Sending a chunk frees its slot. -/
lemma outputSendNext_occupied {o o' : ChunkOutput} {r : ℤ × List Chunk} (hready : o.Ready)
    (h : outputSendNext o = .ok (o', r)) : o'.occupied < o.occupied := by
  obtain ⟨hhead, hbuff, hlen⟩ := outputSendNext_eq_ok h
  rw [ChunkOutput.Ready] at hready
  rw [if_pos hready] at hbuff
  refine Finset.card_lt_card ⟨fun p hp => ?_, fun hsub => ?_⟩
  · rw [hbuff, hlen, Finset.mem_filter] at hp
    refine Finset.mem_filter.mpr ⟨hp.1, ?_⟩
    by_cases hne : p = o.head
    · rw [hne]
      exact hready
    · simpa [hne] using hp.2
  · have hmem := hsub (Finset.mem_filter.mpr ⟨Finset.mem_range.mpr hhead, hready⟩)
    simp [hbuff] at hmem

/-- The loop at the end of `output_deliver`: what can be sent is sent. -/
def outputDrain (o : ChunkOutput) : Eval (ChunkOutput × ℤ × List Chunk) :=
  if _ready : o.Ready then
    match _sent : outputSendNext o with
    | .error u => .error u
    | .ok (o', res, written) => do
        let (o, res', written') ← outputDrain o'
        return (o, res + res', written ++ written')
  else return (o, 0, [])
termination_by o.occupied
decreasing_by exact outputSendNext_occupied ‹_› ‹_›

/-- One round of the loop. -/
lemma outputDrain_of_ready {o o' : ChunkOutput} {res : ℤ} {written : List Chunk}
    (hready : o.Ready) (hsent : outputSendNext o = .ok (o', res, written)) :
    outputDrain o = (do
      let (o, res', written') ← outputDrain o'
      return (o, res + res', written ++ written')) := by
  rw [outputDrain, dif_pos hready]
  split
  next u hs => simp [hsent] at hs
  next o₁ res₁ written₁ hs =>
    rw [hsent, Except.ok.injEq, Prod.mk.injEq, Prod.mk.injEq] at hs
    obtain ⟨rfl, rfl, rfl⟩ := hs
    rfl

lemma outputDrain_of_not_ready {o : ChunkOutput} (hready : ¬ o.Ready) :
    outputDrain o = .ok (o, 0, []) := by
  rw [outputDrain, dif_neg hready]
  rfl

lemma outputDrain_of_error {o : ChunkOutput} {u : Undefined} (hready : o.Ready)
    (hsent : outputSendNext o = .error u) : outputDrain o = .error u := by
  rw [outputDrain, dif_pos hready]
  split
  next v hs =>
    rw [hsent] at hs
    rw [Except.error.inj hs]
  next hs => simp [hsent] at hs

/-- The part of `output_deliver` that makes sure the chunk fits: the flush of everything that is
too far behind it, and the reset of the head. -/
def outputFreeSpace (o : ChunkOutput) (c : Chunk) (newPos : ℤ) :
    Eval (ChunkOutput × ℤ × List Chunk) := do
  let bound ← cint (o.nextOut + o.buffLength)
  if c.id ≥ bound then
    let len ← cint (c.id - o.nextOut)
    let len ← cint (len - o.buffLength)
    let len ← cint (len + 1)
    let (o, res, written) ← outputBuffFlush o len.toNat
    let head ← cmod (newPos + 1) o.buffLength
    return ({ o with head := head.toNat }, res, written)
  else return (o, 0, [])

/-- The slot `pos` gets the chunk, unless it holds one with its id. -/
def outputPlace (o : ChunkOutput) (c : Chunk) (pos : ℤ) : Eval ChunkOutput := do
  let there ← o.slot pos
  return if c.id ≠ there.id then o.store pos (chunkClone there c) else o

/-- `output_deliver`, with neither argument NULL. -/
def outputDeliver (o : ChunkOutput) (c : Chunk) : Eval (ChunkOutput × ℤ × List Chunk) :=
  if o.reorder then
    if c.id ≥ o.nextOut then do
      let o := if o.nextOut < 0 then { o with nextOut := c.id } else o
      let pos ← cint (o.head + c.id)
      let pos ← cint (pos - o.nextOut)
      let newPos ← cmod pos o.buffLength
      let (o, res, written) ← outputFreeSpace o c newPos
      let o ← outputPlace o c newPos
      let (o, res', written') ← outputDrain o
      return (o, res + res', written ++ written')
    else return (o, 0, [])
  else return (o, 1, [c])

end PeerStreamer
