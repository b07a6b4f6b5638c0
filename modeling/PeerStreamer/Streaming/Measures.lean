import PeerStreamer.Foundation.Eval
import PeerStreamer.Streaming.Chunk

/-!
# Measures

`measures.c`: the interval between chunks, estimated from the chunks received.
-/

namespace PeerStreamer

/-- `enum data_state` -/
inductive DataState
  | deinit
  | loading
  | ready
  deriving DecidableEq, Repr

/-- `struct chunk_interval_estimate`; the fields besides the state are set as it goes on. -/
structure ChunkIntervalEstimate where
  firstIndex : UInt32
  lastIndex : UInt32
  firstTimestamp : UInt64
  chunkInterval : ℤ
  state : DataState
  deriving DecidableEq, Repr

/-- `measures_create` -/
def measuresCreate : ChunkIntervalEstimate := ⟨0, 0, 0, 0, .deinit⟩

/-- `reg_chunk_receive`.  There is no transition from `loading` to `ready`. -/
def regChunkReceive (cie : ChunkIntervalEstimate) (c : Chunk) : Eval ChunkIntervalEstimate :=
  match cie.state with
  | .deinit =>
      return { cie with
        firstIndex := UInt32.ofInt c.id
        lastIndex := UInt32.ofInt c.id
        firstTimestamp := UInt64.ofNat c.timestamp
        state := .loading }
  | .loading => return cie
  | .ready =>
      if c.id > cie.lastIndex.toNat then
        let ids := UInt32.ofInt c.id - cie.firstIndex
        if ids = 0 then .error .divisionByZero
        else
          let interval := (UInt64.ofNat c.timestamp - cie.firstTimestamp) / ids.toUInt64
          return { cie with chunkInterval := interval.toNat, lastIndex := UInt32.ofInt c.id }
      else return cie

/-- `DEFAULT_CHUNK_INTERVAL` -/
def DEFAULT_CHUNK_INTERVAL : ℤ := 1000000 / 25

/-- `chunk_interval_measure` -/
def chunkIntervalMeasure (cie : ChunkIntervalEstimate) : ℤ :=
  if cie.state = .ready then cie.chunkInterval else DEFAULT_CHUNK_INTERVAL

/-- The estimate never becomes ready. -/
lemma regChunkReceive_not_ready {cie cie' : ChunkIntervalEstimate} {c : Chunk}
    (h : cie.state ≠ .ready) (hreg : regChunkReceive cie c = .ok cie') : cie'.state ≠ .ready := by
  rw [regChunkReceive] at hreg
  cases hs : cie.state with
  | deinit =>
      rw [hs] at hreg
      cases hreg
      simp
  | loading =>
      rw [hs] at hreg
      cases hreg
      exact h
  | ready => exact absurd hs h

lemma chunkIntervalMeasure_eq {cie : ChunkIntervalEstimate} (h : cie.state ≠ .ready) :
    chunkIntervalMeasure cie = DEFAULT_CHUNK_INTERVAL :=
  if_neg h

end PeerStreamer
