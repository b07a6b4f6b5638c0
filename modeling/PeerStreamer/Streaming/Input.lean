import PeerStreamer.Foundation.Eval
import PeerStreamer.Foundation.Run
import PeerStreamer.Foundation.Timeval
import PeerStreamer.Streaming.Trader

/-!
# The input of a source

`input-grapes.c`: a source asks its input for chunks, numbers them and waits until the next one is
due.  What `chunkise` of GRAPES answers is an argument, and so is the time.

The interval is computed in 64 bits and returned as an `int`.  A source that gets a negative one
takes it for an error and exits.
-/

namespace PeerStreamer

/-- The conversion to `int64_t`. -/
def int64 (z : ℤ) : ℤ := z.bmod (2 ^ 64)

/-- The conversion to `int` of a longer integer. -/
def int32 (z : ℤ) : ℤ := z.bmod (2 ^ 32)

def INITIAL_ID : ℤ := 0
def DEFAULT_DATA_INTERVAL : ℤ := 3000

/-- `struct input_desc`, without the stream. -/
structure InputDesc where
  id : ℤ
  interframe : ℤ
  startTime : ℤ
  firstTs : ℤ
  deriving DecidableEq, Repr

/-- What one call of `chunkise` does: the value it returns, and what it stores in the chunk. -/
structure Chunkised where
  res : ℤ
  size : ℕ
  timestamp : ℕ
  data : Option Bytes
  deriving DecidableEq, Repr

/-- `chunk_attributes_init`: the hop count is 0. -/
def chunkAttributesInit (c : Chunk) : Chunk := { c with attributesSize := 2, attributes := [0, 0] }

/-- `input_open`, with the `interframe` of the stream, which is 0 if the stream has descriptors of
its own. -/
def inputOpen (interframe : ℤ) (now : Timeval) : InputDesc :=
  if interframe = 0 then ⟨0, 0, 0, 0⟩
  else ⟨INITIAL_ID, interframe, now.toUsec % 2 ^ 64, 0⟩

namespace InputDesc

/-- The timestamp of the first chunk, from the first call that stores one. -/
def first (s : InputDesc) (k : Chunkised) : ℤ := if s.firstTs = 0 then k.timestamp else s.firstTs

/-- The `delta` of `input_get`. -/
def delta (s : InputDesc) (k : Chunkised) (now : Timeval) : ℤ :=
  if s.interframe ≠ 0 then
    let delta := int64 (k.timestamp - s.first k + s.interframe)
    max (int64 (delta + s.startTime - now.toUsec)) 0
  else DEFAULT_DATA_INTERVAL

/-- `input_get`: the value returned and the chunk, without its data. -/
def inputGet (s : InputDesc) (k : Chunkised) (now : Timeval) : Eval (InputDesc × ℤ × Chunk) :=
  let c : Chunk := ⟨s.id, k.size, (now.toUsec % 2 ^ 64).toNat, 0, [], []⟩
  if k.res < 0 then return (s, -1, c)
  else do
    let id ← if k.res > 0 then cint (s.id + 1) else pure s.id
    return ({ s with id, firstTs := s.first k }, int32 (s.delta k now), c)

/-- `input_chunk`: the chunk, if there is one, and the interval; `none` if it calls `exit`. -/
def inputChunk (s : InputDesc) (k : Chunkised) (now : Timeval) :
    Eval (Option (InputDesc × Option Chunk × ℤ)) := do
  let (s, delta, c) ← s.inputGet k now
  if delta < 0 then return none
  else return some (s, k.data.map fun data => chunkAttributesInit { c with data }, delta)

end InputDesc

/-! ## One call -/

/-- What `chunkise` promises: there is a chunk, as long as its size says, if and only if the value
is positive. -/
structure Chunkised.Documented (k : Chunkised) : Prop where
  chunk : 0 < k.res ↔ k.data.isSome
  size : ∀ data, k.data = some data → data.length = k.size

namespace InputDesc

/-- What a call of `input_chunk` does that does not exit. -/
structure Given (s : InputDesc) (k : Chunkised) (s' : InputDesc) (c : Option Chunk) (interval : ℤ) :
    Prop where
  id : s'.id = s.id + if 0 < k.res then 1 else 0
  interframe : s'.interframe = s.interframe
  startTime : s'.startTime = s.startTime
  interval : 0 ≤ interval
  data : c.map Chunk.data = k.data
  chunk : ∀ d, c = some d → d.id = s.id ∧ d.size = k.size ∧ d.attributes = [0, 0]

variable {s s' : InputDesc} {k : Chunkised} {now : Timeval} {c : Option Chunk} {interval : ℤ}

/-- **One call** of `input_chunk`. -/
theorem given_of_inputChunk (h : s.inputChunk k now = .ok (some (s', c, interval))) :
    Given s k s' c interval := by
  simp only [inputChunk, Eval.bind_eq_ok] at h
  obtain ⟨⟨s₁, delta, c₁⟩, hget, h⟩ := h
  by_cases hdelta : delta < 0
  · simp [hdelta] at h
  · simp only [hdelta, if_false, Eval.pure_eq_ok, Except.ok.injEq, Option.some.injEq,
      Prod.mk.injEq] at h
    obtain ⟨rfl, rfl, rfl⟩ := h
    have hid : s₁.id = (s.id + if 0 < k.res then 1 else 0) ∧ s₁.interframe = s.interframe
        ∧ s₁.startTime = s.startTime
        ∧ c₁ = ⟨s.id, k.size, (now.toUsec % 2 ^ 64).toNat, 0, [], []⟩ := by
      rw [inputGet] at hget
      by_cases herr : k.res < 0
      · simp only [herr, if_true, Eval.pure_eq_ok, Except.ok.injEq, Prod.mk.injEq] at hget
        omega
      · by_cases hres : k.res > 0
        · simp only [herr, hres, if_false, if_true, Eval.bind_eq_ok, Eval.pure_eq_ok,
            Except.ok.injEq, Prod.mk.injEq] at hget
          obtain ⟨id, hid, rfl, -, rfl⟩ := hget
          exact ⟨by simp [hres, eq_of_cint_eq_ok hid], rfl, rfl, rfl⟩
        · simp only [herr, hres, if_false, Eval.pure_eq_ok, Eval.ok_bind, Except.ok.injEq,
            Prod.mk.injEq] at hget
          obtain ⟨rfl, -, rfl⟩ := hget
          exact ⟨by simp [hres], rfl, rfl, rfl⟩
    obtain ⟨hid, hinter, hstart, rfl⟩ := hid
    refine ⟨hid, hinter, hstart, not_lt.mp hdelta, by cases k.data <;> rfl, ?_⟩
    intro d hd
    obtain ⟨data, -, rfl⟩ := Option.map_eq_some_iff.mp hd
    exact ⟨rfl, rfl, rfl⟩

/-- As long as there are ids, a call does not overflow. -/
lemma inputChunk_total (h₀ : 0 ≤ s.id) (h : s.id < INT_MAX) (k : Chunkised) (now : Timeval) :
    ∃ r, s.inputChunk k now = .ok r := by
  have hmin : INT_MIN ≤ 0 := by decide
  have hid : cint (s.id + 1) = .ok (s.id + 1) := cint_ok (by omega) (by omega)
  have hget : ∃ r, s.inputGet k now = .ok r := by
    rw [inputGet]
    dsimp only
    split_ifs with herr hres
    · exact ⟨_, rfl⟩
    · exact ⟨_, by rw [hid]; rfl⟩
    · exact ⟨_, rfl⟩
  obtain ⟨⟨s₁, delta, c⟩, hget⟩ := hget
  simp only [inputChunk, hget, Eval.ok_bind]
  split_ifs
  · exact ⟨_, rfl⟩
  · exact ⟨_, rfl⟩

end InputDesc

end PeerStreamer
