import PeerStreamer.Streaming.Measures

/-!
# The measured chunk interval

`chunk_interval_measure` is to be the time between the first chunk and the newest one over the
difference of their ids.  The estimate is computed in the state `ready` only, and
`reg_chunk_receive` stays in `loading` for ever (`regChunks_loading`): whatever has been registered,
the measure is the default, and it is right exactly where the default is
(`chunkIntervalMeasured_iff`).  Nothing but that transition is missing: from the state `ready` on
the estimate is what it should be (`regChunks_ready`).
-/

namespace PeerStreamer

/-! ## The interval there is -/

/-- `reg_chunk_receive` of one chunk after the other. -/
def regChunks (cie : ChunkIntervalEstimate) (cs : List Chunk) : Eval ChunkIntervalEstimate :=
  cs.foldlM regChunkReceive cie

/-- The first chunk with the highest id. -/
def newestChunk (first : Chunk) (rest : List Chunk) : Chunk :=
  rest.foldl (fun newest c => if c.id > newest.id then c else newest) first

/-- The time from one chunk to another, over the difference of their ids. -/
def chunkIntervalBetween (first newest : Chunk) : ℤ :=
  ((newest.timestamp : ℤ) - first.timestamp) / (newest.id - first.id)

/-- **What is promised of the measure** after the chunks `cs`.  They can be registered; once an id
is larger than the first one, the measure is the interval between the first chunk and the newest;
and a chunk that is late or a duplicate does not change it. -/
def ChunkIntervalMeasured (cs : List Chunk) : Prop :=
  ∃ cie, regChunks measuresCreate cs = .ok cie
    ∧ (∀ first rest, cs = first :: rest → (∃ d ∈ rest, first.id < d.id) →
      chunkIntervalMeasure cie = chunkIntervalBetween first (newestChunk first rest))
    ∧ ∀ c, (∃ d ∈ cs, c.id ≤ d.id) → ∃ cie', regChunkReceive cie c = .ok cie'
      ∧ chunkIntervalMeasure cie' = chunkIntervalMeasure cie

lemma newestChunk_snoc (first : Chunk) (rest : List Chunk) (c : Chunk) :
    newestChunk first (rest ++ [c])
      = if c.id > (newestChunk first rest).id then c else newestChunk first rest := by
  rw [newestChunk, List.foldl_append]
  rfl

/-- **The newest chunk** has the highest id, and those before it have a lower one. -/
lemma newestChunk_spec (first : Chunk) (rest : List Chunk) :
    ∃ before after, first :: rest = before ++ newestChunk first rest :: after
      ∧ (∀ d ∈ before, d.id < (newestChunk first rest).id)
      ∧ ∀ d ∈ after, d.id ≤ (newestChunk first rest).id := by
  induction rest using List.reverseRecOn with
  | nil => exact ⟨[], [], rfl, by simp, by simp⟩
  | append_singleton rest c ih =>
      obtain ⟨before, after, hsplit, hbefore, hafter⟩ := ih
      rw [newestChunk_snoc, ← List.cons_append, hsplit]
      by_cases hc : c.id > (newestChunk first rest).id
      · rw [if_pos hc]
        refine ⟨before ++ newestChunk first rest :: after, [], rfl, fun d hd => ?_, by simp⟩
        rcases List.mem_append.mp hd with hd | hd
        · exact (hbefore d hd).trans hc
        · rcases List.mem_cons.mp hd with rfl | hd
          · exact hc
          · exact lt_of_le_of_lt (hafter d hd) hc
      · rw [if_neg hc]
        refine ⟨before, after ++ [c], by simp, hbefore, fun d hd => ?_⟩
        rcases List.mem_append.mp hd with hd | hd
        · exact hafter d hd
        · rw [List.mem_singleton.mp hd]
          exact not_lt.mp hc

/-! ## The interval that is measured -/

section Loading

variable {cie : ChunkIntervalEstimate}

/-- A chunk can be registered, and does not make the estimate ready. -/
lemma regChunkReceive_loading (h : cie.state ≠ .ready) (c : Chunk) :
    ∃ cie', regChunkReceive cie c = .ok cie' ∧ cie'.state ≠ .ready := by
  have hok : (regChunkReceive cie c).isOk = true := by
    rw [regChunkReceive]
    cases hs : cie.state with
    | deinit => rfl
    | loading => rfl
    | ready => exact absurd hs h
  obtain ⟨cie', hreg⟩ := Eval.exists_ok hok
  exact ⟨cie', hreg, regChunkReceive_not_ready h hreg⟩

/-- **So can any number of them.** -/
lemma regChunks_loading (h : cie.state ≠ .ready) (cs : List Chunk) :
    ∃ cie', regChunks cie cs = .ok cie' ∧ cie'.state ≠ .ready := by
  induction cs generalizing cie with
  | nil => exact ⟨cie, rfl, h⟩
  | cons c cs ih =>
      obtain ⟨cie₁, hreg, h₁⟩ := regChunkReceive_loading h c
      obtain ⟨cie', hregs, h'⟩ := ih h₁
      refine ⟨cie', ?_, h'⟩
      rw [regChunks, List.foldlM_cons, hreg]
      exact hregs

end Loading

/-- **The measure** is the interval exactly where no id is larger than the first one, or the
interval is the default. -/
theorem chunkIntervalMeasured_iff (cs : List Chunk) :
    ChunkIntervalMeasured cs ↔ ∀ first rest, cs = first :: rest →
      (∃ d ∈ rest, first.id < d.id) →
      chunkIntervalBetween first (newestChunk first rest) = DEFAULT_CHUNK_INTERVAL := by
  have hstart : measuresCreate.state ≠ .ready := by simp [measuresCreate]
  obtain ⟨cie, hregs, hstate⟩ := regChunks_loading hstart cs
  have hmeasure := chunkIntervalMeasure_eq hstate
  constructor
  · rintro ⟨cie', hregs', hinterval, -⟩ first rest hcs hid
    obtain rfl : cie = cie' := Except.ok.inj (hregs.symm.trans hregs')
    rw [← hinterval first rest hcs hid, hmeasure]
  · intro h
    refine ⟨cie, hregs, fun first rest hcs hid => ?_, fun c _ => ?_⟩
    · rw [hmeasure, h first rest hcs hid]
    · obtain ⟨cie', hreg, hstate'⟩ := regChunkReceive_loading hstate c
      exact ⟨cie', hreg, (chunkIntervalMeasure_eq hstate').trans hmeasure.symm⟩

/-! ## The interval that would be measured -/

/-- The values of the fields of a chunk: an `int` that is not negative, and a time that is not
before that of the first. -/
structure Chunk.After (first c : Chunk) : Prop where
  id_nonneg : 0 ≤ c.id
  id_le : c.id ≤ INT_MAX
  timestamp_le : first.timestamp ≤ c.timestamp
  timestamp_lt : c.timestamp < 2 ^ 64

/-- An estimate that is ready, and was made from the chunks up to `newest`. -/
structure ChunkIntervalEstimate.Ready (cie : ChunkIntervalEstimate) (first newest : Chunk) :
    Prop where
  state : cie.state = .ready
  firstIndex : cie.firstIndex = UInt32.ofInt first.id
  firstTimestamp : cie.firstTimestamp = UInt64.ofNat first.timestamp
  lastIndex : cie.lastIndex = UInt32.ofInt newest.id
  interval : first.id < newest.id → cie.chunkInterval = chunkIntervalBetween first newest

section Ready

variable {cie : ChunkIntervalEstimate} {first newest c : Chunk}

lemma uint32_ofInt_toNat {z : ℤ} (h₀ : 0 ≤ z) (h : z ≤ INT_MAX) :
    ((UInt32.ofInt z).toNat : ℤ) = z := by
  rw [INT_MAX] at h
  rw [UInt32.ofInt, UInt32.toNat_ofNat']
  omega

/-- The unsigned quotient is that of the numbers. -/
lemma interval_eq (hfirst : first.After first) (hc : first.After c) (hid : first.id < c.id) :
    UInt32.ofInt c.id - UInt32.ofInt first.id ≠ 0
      ∧ (((UInt64.ofNat c.timestamp - UInt64.ofNat first.timestamp)
        / (UInt32.ofInt c.id - UInt32.ofInt first.id).toUInt64).toNat : ℤ)
        = chunkIntervalBetween first c := by
  have hfirstId := uint32_ofInt_toNat hfirst.id_nonneg hfirst.id_le
  have hcId := uint32_ofInt_toNat hc.id_nonneg hc.id_le
  have hids : ((UInt32.ofInt c.id - UInt32.ofInt first.id).toNat : ℤ) = c.id - first.id := by
    rw [UInt32.toNat_sub_of_le _ _ (UInt32.le_iff_toNat_le.mpr (by omega))]
    omega
  have htime : ((UInt64.ofNat c.timestamp - UInt64.ofNat first.timestamp).toNat : ℤ)
      = (c.timestamp : ℤ) - first.timestamp := by
    have hle := hc.timestamp_le
    have hlt := hc.timestamp_lt
    have hcTime : (UInt64.ofNat c.timestamp).toNat = c.timestamp :=
      UInt64.toNat_ofNat_of_lt' (by rw [UInt64.size]; omega)
    have hfirstTime : (UInt64.ofNat first.timestamp).toNat = first.timestamp :=
      UInt64.toNat_ofNat_of_lt' (by rw [UInt64.size]; omega)
    rw [UInt64.toNat_sub_of_le _ _ (UInt64.le_iff_toNat_le.mpr (by omega)), hcTime, hfirstTime,
      Nat.cast_sub hle]
  constructor
  · intro hzero
    rw [hzero] at hids
    simp only [UInt32.toNat_zero, Nat.cast_zero] at hids
    omega
  · rw [UInt64.toNat_div, Int.natCast_div, htime, UInt32.toNat_toUInt64, hids]
    rfl

/-- **One more chunk**, in the state `ready`: the estimate moves on if it is newer. -/
lemma ChunkIntervalEstimate.Ready.step (h : cie.Ready first newest) (hfirst : first.After first)
    (hnewest : first.After newest) (hle : first.id ≤ newest.id) (hc : first.After c) :
    ∃ cie', regChunkReceive cie c = .ok cie'
      ∧ cie'.Ready first (if c.id > newest.id then c else newest) := by
  have hlast : (cie.lastIndex.toNat : ℤ) = newest.id := by
    rw [h.lastIndex]
    exact uint32_ofInt_toNat hnewest.id_nonneg hnewest.id_le
  by_cases hid : c.id > newest.id
  · obtain ⟨hids, hinterval⟩ := interval_eq hfirst hc (lt_of_le_of_lt hle hid)
    refine ⟨{ cie with
      chunkInterval := chunkIntervalBetween first c, lastIndex := UInt32.ofInt c.id }, ?_, ?_⟩
    · simp only [regChunkReceive, h.state, hlast, hid, if_true, h.firstIndex, hids, if_false,
        h.firstTimestamp, hinterval, Eval.pure_eq_ok]
    · rw [if_pos hid]
      exact ⟨h.state, h.firstIndex, h.firstTimestamp, rfl, fun _ => rfl⟩
  · refine ⟨cie, ?_, ?_⟩
    · simp only [regChunkReceive, h.state, hlast, hid, if_false, Eval.pure_eq_ok]
    · rw [if_neg hid]
      exact h

/-- **The measure that is missed.**  Were the estimate ready once a first chunk is there, it would
be what is promised, whatever chunks come next. -/
theorem regChunks_ready (h : cie.Ready first newest) (hfirst : first.After first)
    (hnewest : first.After newest) (hle : first.id ≤ newest.id) {cs : List Chunk}
    (hcs : ∀ c ∈ cs, first.After c) :
    ∃ cie', regChunks cie cs = .ok cie' ∧ cie'.Ready first (newestChunk newest cs) := by
  induction cs generalizing cie newest with
  | nil => exact ⟨cie, rfl, h⟩
  | cons c cs ih =>
      obtain ⟨hc, hcs⟩ := List.forall_mem_cons.mp hcs
      obtain ⟨cie₁, hreg, h₁⟩ := h.step hfirst hnewest hle hc
      have hnext : first.After (if c.id > newest.id then c else newest)
          ∧ first.id ≤ (if c.id > newest.id then c else newest).id := by
        split_ifs with hid
        · exact ⟨hc, hle.trans hid.le⟩
        · exact ⟨hnewest, hle⟩
      obtain ⟨cie', hregs, h'⟩ := ih h₁ hnext.1 hnext.2 hcs
      refine ⟨cie', ?_, h'⟩
      rw [regChunks, List.foldlM_cons, hreg]
      exact hregs

end Ready

/-- Two chunks, a twentieth of a second apart. -/
theorem not_chunkIntervalMeasured : ¬∀ cs : List Chunk, ChunkIntervalMeasured cs := by
  intro hall
  obtain ⟨cie, hregs, hinterval, -⟩ := hall [⟨0, 0, 0, 0, [], []⟩, ⟨1, 0, 50000, 0, [], []⟩]
  have hcie : cie = ⟨0, 0, 0, 0, .loading⟩ := (Except.ok.inj hregs).symm
  have hfalse := hinterval _ _ rfl ⟨_, List.mem_singleton_self _, by decide⟩
  rw [hcie] at hfalse
  exact absurd hfalse (by decide)

end PeerStreamer
