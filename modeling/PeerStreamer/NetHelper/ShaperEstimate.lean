import PeerStreamer.NetHelper.NetworkShaper

/-!
# The estimated rate

Every `send_to_peer` updates the estimate of the rate that the shaper allows a multiple of: an
exponential average in which the size of the payload is divided by the time since the last update.
Two updates in the same microsecond divide by zero.  As long as the clock shows a later time at
every call, the estimate stays positive, and the shaper can compute with it (`estimate_usable_iff`).
-/

namespace PeerStreamer

/-- A call of `send_to_peer`, with its readings of the clock. -/
structure SendCall where
  src : NodeID
  dst : NodeID
  data : Bytes
  tSweep : ℤ
  tCreate : ℤ
  now : ℤ

/-- `send_to_peer`: the packet is enqueued, and the shaper told. -/
def sendCallStep (s : LocalNode) (c : SendCall) : Eval (LocalNode × ℤ) :=
  if c.data.length > 0 then do
    let (nm, res) ←
      networkManagerEnqueueOutgoingPacket s.nm c.src c.dst c.data c.tSweep c.tCreate
    let (shaper, _) ← networkShaperUpdateBitrate s.shaper c.data.length (.gettimeofday c.now)
    return ({ s with nm, shaper }, if res ≥ 0 then c.data.length else res)
  else return (s, -1)

/-- The update that a call makes is defined and leaves a positive estimate, with which the shaper
can register bytes. -/
def EstimateUsable (s : LocalNode) (c : SendCall) : Prop :=
  ∃ shaper, networkShaperUpdateBitrate s.shaper c.data.length (.gettimeofday c.now)
      = .ok (shaper, 0)
    ∧ 0 < shaper.estimatedByteratePersecond
    ∧ ∀ n, ∃ r, networkShaperRegisterSentBytes id shaper n = .ok r

/-- The clock shows a later time than at the last update, and the multiple is not zero. -/
def ClockMoved (s : LocalNode) (c : SendCall) : Prop :=
  s.shaper.lastUpdateTime.toUsec < c.now ∧ s.shaper.multiplyer ≠ 0

section Estimate

variable {ns : NetworkShaper} {s : LocalNode} {c : SendCall} {n : ℕ} {now : ℤ}

/-- The period of an update is the time since the last one. -/
lemma updatePeriod_eq (now last : Timeval) :
    ((now.timersub last).sec + ((now.timersub last).usec : ℚ) / 1000000 : ℚ)
      = ((now.toUsec - last.toUsec : ℤ) : ℚ) / 1000000 := by
  rw [← Timeval.timersub_toUsec, Timeval.toUsec]
  push_cast
  ring

/-- **An update** of a payload that is not empty. -/
lemma networkShaperUpdateBitrate_eq (hn : 0 < n) (hnow : ns.lastUpdateTime.toUsec ≠ now) :
    networkShaperUpdateBitrate ns n (.gettimeofday now) = .ok ({ ns with
      estimatedByteratePersecond := ns.alphaMemory * ns.estimatedByteratePersecond
        + (1 - ns.alphaMemory) * n / (((now - ns.lastUpdateTime.toUsec : ℤ) : ℚ) / 1000000)
      lastUpdateTime := .gettimeofday now }, 0) := by
  have hperiod : (((now - ns.lastUpdateTime.toUsec : ℤ) : ℚ) / 1000000) ≠ 0 := by
    have hne : now - ns.lastUpdateTime.toUsec ≠ 0 := sub_ne_zero.mpr hnow.symm
    exact div_ne_zero (Int.cast_ne_zero.mpr hne) (by norm_num)
  rw [networkShaperUpdateBitrate, if_pos hn]
  simp only [updatePeriod_eq, Timeval.gettimeofday_toUsec, finiteQuotient, if_neg hperiod,
    Eval.pure_eq_ok, Eval.ok_bind]

/-- An update at the time of the last one. -/
lemma networkShaperUpdateBitrate_same (hn : 0 < n) (hnow : ns.lastUpdateTime.toUsec = now) :
    networkShaperUpdateBitrate ns n (.gettimeofday now) = .error .divisionByZero := by
  rw [networkShaperUpdateBitrate, if_pos hn]
  simp only [updatePeriod_eq, Timeval.gettimeofday_toUsec, hnow, sub_self, Int.cast_zero, zero_div,
    finiteQuotient, if_true]
  rfl

/-- A shaper can register bytes when its rate is not zero. -/
lemma networkShaperRegisterSentBytes_defined :
    (∀ n, ∃ r, networkShaperRegisterSentBytes id ns n = .ok r) ↔ ns.rate ≠ 0 := by
  constructor
  · intro h hzero
    obtain ⟨r, hr⟩ := h 1
    simp [networkShaperRegisterSentBytes, finiteQuotient, hzero] at hr
  · intro hrate n
    rw [networkShaperRegisterSentBytes]
    split_ifs
    · simp only [finiteQuotient, id, if_neg hrate]
      exact ⟨_, rfl⟩
    · exact ⟨_, rfl⟩

/-- **One call**: when the clock has not gone back, the estimate stays usable exactly if the clock
has moved. -/
lemma estimateUsable_iff (hdata : 0 < c.data.length) (hα₀ : 0 < s.shaper.alphaMemory)
    (hα₁ : s.shaper.alphaMemory ≤ 1) (hest : 0 < s.shaper.estimatedByteratePersecond)
    (hnow : s.shaper.lastUpdateTime.toUsec ≤ c.now) : EstimateUsable s c ↔ ClockMoved s c := by
  rcases hnow.eq_or_lt with heq | hlt
  · refine iff_of_false ?_ fun h => absurd heq h.1.ne
    rintro ⟨shaper, hupdate, -⟩
    rw [networkShaperUpdateBitrate_same hdata heq] at hupdate
    cases hupdate
  · -- the recent rate is not negative, so the average of the two is positive
    have hperiod : (0 : ℚ) < ((c.now - s.shaper.lastUpdateTime.toUsec : ℤ) : ℚ) / 1000000 :=
      div_pos (Int.cast_pos.mpr (by omega)) (by norm_num)
    have hrecent : 0 ≤ (1 - s.shaper.alphaMemory) * c.data.length
        / (((c.now - s.shaper.lastUpdateTime.toUsec : ℤ) : ℚ) / 1000000) :=
      div_nonneg (mul_nonneg (by linarith) (Nat.cast_nonneg _)) hperiod.le
    have hpos := add_pos_of_pos_of_nonneg (mul_pos hα₀ hest) hrecent
    have hupdate : networkShaperUpdateBitrate s.shaper c.data.length (.gettimeofday c.now) = _ :=
      networkShaperUpdateBitrate_eq hdata hlt.ne
    constructor
    · rintro ⟨shaper, hupdate', -, hregister⟩
      obtain ⟨rfl, -⟩ := ok_unique hupdate hupdate'
      have hrate := networkShaperRegisterSentBytes_defined.mp hregister
      exact ⟨hlt, left_ne_zero_of_mul hrate⟩
    · rintro ⟨-, hne⟩
      exact ⟨_, hupdate, hpos,
        networkShaperRegisterSentBytes_defined.mpr (mul_ne_zero hne hpos.ne')⟩

/-- The shaper after a call that succeeds. -/
lemma sendCallStep_shaper {s' : LocalNode} {res : ℤ} (hdata : 0 < c.data.length)
    (h : sendCallStep s c = .ok (s', res)) :
    ∃ r, networkShaperUpdateBitrate s.shaper c.data.length (.gettimeofday c.now)
      = .ok (s'.shaper, r) := by
  rw [sendCallStep, if_pos hdata] at h
  obtain ⟨⟨nm, r₁⟩, -, h⟩ := Eval.bind_eq_ok.mp h
  obtain ⟨⟨shaper, r₂⟩, hupdate, h⟩ := Eval.bind_eq_ok.mp h
  cases h
  exact ⟨r₂, hupdate⟩

end Estimate

/-- **When the estimate stays usable.**  For every run of calls with payloads, from a positive
estimate and with a clock that never goes back: every update divides by a time that is not zero,
leaves a positive estimate and a shaper that can register bytes, if and only if the clock shows a
later time at each call than at the last update, and the configured multiple is not zero. -/
theorem estimate_usable_iff {s : LocalNode} {calls : List SendCall}
    (hα₀ : 0 < s.shaper.alphaMemory) (hα₁ : s.shaper.alphaMemory ≤ 1)
    (hest : 0 < s.shaper.estimatedByteratePersecond) (hdata : ∀ c ∈ calls, 0 < c.data.length)
    (hclock : (s.shaper.lastUpdateTime.toUsec :: calls.map SendCall.now).IsChain (· ≤ ·)) :
    Along sendCallStep EstimateUsable s calls ↔ Along sendCallStep ClockMoved s calls := by
  induction calls generalizing s with
  | nil => exact Iff.rfl
  | cons c calls ih =>
      obtain ⟨hc, hdata⟩ := List.forall_mem_cons.mp hdata
      rw [List.map_cons, List.isChain_cons_cons] at hclock
      have hone := estimateUsable_iff hc hα₀ hα₁ hest hclock.1
      rw [along_cons, along_cons, hone]
      refine and_congr_right fun hmoved => forall₃_congr fun s' res hstep => ?_
      obtain ⟨shaper, hupdate, hpos, -⟩ := hone.mpr hmoved
      obtain ⟨r, hshaper⟩ := sendCallStep_shaper hc hstep
      obtain ⟨rfl, -⟩ := ok_unique hupdate hshaper
      obtain ⟨hs', -⟩ := ok_unique (networkShaperUpdateBitrate_eq hc hmoved.1.ne) hshaper
      refine ih ?_ ?_ hpos hdata ?_
      · rw [← hs']
        exact hα₀
      · rw [← hs']
        exact hα₁
      · rw [← hs', Timeval.gettimeofday_toUsec]
        exact hclock.2

/-! ## A burst -/

/-- A payload of one byte, sent at the time `now`. -/
def sendOneByte (now : ℤ) : SendCall := ⟨⟨[65], 6000, 3⟩, ⟨[66], 6001, -1⟩, [7], now, now, now⟩

/-- A node with the default rate, created at time zero. -/
def freshNode : LocalNode where
  fd := ⟨6, by decide⟩
  nm := networkManagerCreate ⟨none, none⟩
  shaper := networkShaperCreate none none (.gettimeofday 0) (.gettimeofday 0)
  sendingBufferLen := 1300

lemma freshNode_alphaMemory : freshNode.shaper.alphaMemory = 9 / 10 := rfl

lemma freshNode_estimate : freshNode.shaper.estimatedByteratePersecond = 1000000 := rfl

/-- Two sends, a microsecond apart. -/
theorem estimate_usable_iff_apart :
    Along sendCallStep EstimateUsable freshNode [sendOneByte 1, sendOneByte 2]
      ↔ Along sendCallStep ClockMoved freshNode [sendOneByte 1, sendOneByte 2] :=
  estimate_usable_iff (by norm_num [freshNode_alphaMemory]) (by norm_num [freshNode_alphaMemory])
    (by norm_num [freshNode_estimate]) (by decide) (by decide)

/-- Two sends in the same microsecond divide by zero. -/
theorem not_estimate_usable :
    ¬∀ (s : LocalNode) (calls : List SendCall), 0 < s.shaper.alphaMemory →
      s.shaper.alphaMemory ≤ 1 → 0 < s.shaper.multiplyer →
      0 < s.shaper.estimatedByteratePersecond → (∀ c ∈ calls, 0 < c.data.length) →
      (s.shaper.lastUpdateTime.toUsec :: calls.map SendCall.now).IsChain (· ≤ ·) →
      Along sendCallStep EstimateUsable s calls := by
  intro hall
  have halong := hall freshNode [sendOneByte 1, sendOneByte 1] (by norm_num [freshNode_alphaMemory])
    (by norm_num [freshNode_alphaMemory])
    (by norm_num [freshNode, networkShaperCreate, DEFAULT_BYTERATE_MULTIPLYER])
    (by norm_num [freshNode_estimate]) (by decide) (by decide)
  obtain ⟨⟨s', res⟩, hstep⟩ := Eval.exists_ok
    (show (sendCallStep freshNode (sendOneByte 1)).isOk = true by decide +kernel)
  obtain ⟨r, hupdate⟩ := sendCallStep_shaper (by decide) hstep
  obtain ⟨hs', -⟩ := ok_unique (networkShaperUpdateBitrate_eq (by decide) (by decide)) hupdate
  obtain ⟨shaper, hupdate', -⟩ := (halong.2 s' res hstep).1
  rw [← hs', networkShaperUpdateBitrate_same (by decide) (Timeval.gettimeofday_toUsec 1)]
    at hupdate'
  cases hupdate'

end PeerStreamer
