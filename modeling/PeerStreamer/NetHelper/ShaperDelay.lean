import PeerStreamer.NetHelper.Shaping

/-!
# The delay of the shaper

`network_shaper_register_sent_bytes` puts off the next sending event by the time that so many bytes
take.  It adds the whole seconds of that time to the seconds of the event and the rest to the
microseconds, and never carries: after a few calls the microseconds may be a million and more.
`timercmp` compares the seconds first, so the event is taken for past as soon as the clock shows
later seconds, while microseconds beyond the next second are still to wait (`delay_exact_iff`).
-/

namespace PeerStreamer

variable (rnd : ℚ → ℚ)

/-- The period that so many bytes are registered with, in whole seconds and microseconds. -/
def NetworkShaper.registered (ns : NetworkShaper) (dataSize : ℕ) : Timeval :=
  if dataSize > 0 then
    let period := rnd (rnd dataSize / rnd ns.rate)
    let secs := truncate period % 2 ^ 32
    ⟨secs, truncate (rnd (rnd (period - secs) * 1000000))⟩
  else ⟨0, 0⟩

/-- The next sending event after so many bytes have been registered, one call after the other. -/
def NetworkShaper.putOff (ns : NetworkShaper) (sizes : List ℕ) : Timeval :=
  ⟨ns.nextSendingEvent.sec + (sizes.map fun n => (ns.registered rnd n).sec).sum,
    ns.nextSendingEvent.usec + (sizes.map fun n => (ns.registered rnd n).usec).sum⟩

/-- After the calls the delay is the time from `now` to the start put off by all registered periods,
or zero when that has passed. -/
def DelayExact (ns : NetworkShaper) (sizes : List ℕ) (now : Timeval) : Prop :=
  ∃ ns' answers, exec (networkShaperRegisterSentBytes rnd) ns sizes = .ok (ns', answers)
    ∧ (networkShaperNextSendingInterval ns' now).toUsec
      = max 0 (ns.nextSendingEvent.toUsec + (sizes.map fun n => (ns.registered rnd n).toUsec).sum
        - now.toUsec)

section Delay

variable {rnd} {ns : NetworkShaper} {sizes : List ℕ} {n : ℕ}

/-- **One call** adds the seconds to the seconds and the microseconds to the microseconds. -/
lemma networkShaperRegisterSentBytes_eq (hrate : rnd ns.rate ≠ 0) (n : ℕ) :
    ∃ res, networkShaperRegisterSentBytes rnd ns n
      = .ok ({ ns with nextSendingEvent := ns.putOff rnd [n] }, res) := by
  rw [networkShaperRegisterSentBytes]
  by_cases hn : n > 0
  · refine ⟨0, ?_⟩
    rw [if_pos hn, finiteQuotient, if_neg hrate]
    simp only [Eval.pure_eq_ok, Eval.ok_bind, NetworkShaper.putOff, NetworkShaper.registered,
      if_pos hn, List.map_cons, List.map_nil, List.sum_cons, List.sum_nil, add_zero]
  · refine ⟨-1, ?_⟩
    rw [if_neg hn]
    simp [NetworkShaper.putOff, NetworkShaper.registered, if_neg hn]

/-- **A run of calls.** -/
lemma exec_registerSentBytes (hrate : rnd ns.rate ≠ 0) (sizes : List ℕ) :
    ∃ answers, exec (networkShaperRegisterSentBytes rnd) ns sizes
      = .ok ({ ns with nextSendingEvent := ns.putOff rnd sizes }, answers) := by
  induction sizes generalizing ns with
  | nil => exact ⟨[], by simp [NetworkShaper.putOff]⟩
  | cons n sizes ih =>
      obtain ⟨res, hone⟩ := networkShaperRegisterSentBytes_eq hrate n
      have hrate' :
          rnd (NetworkShaper.rate { ns with nextSendingEvent := ns.putOff rnd [n] }) ≠ 0 := hrate
      obtain ⟨answers, hrest⟩ := ih hrate'
      refine ⟨res :: answers, exec_cons_eq_ok.mpr ⟨_, res, answers, hone, hrest.trans ?_, rfl⟩⟩
      simp [NetworkShaper.putOff, NetworkShaper.registered, NetworkShaper.rate, add_assoc]

/-- In microseconds it is the sum of all periods. -/
lemma putOff_toUsec (ns : NetworkShaper) (sizes : List ℕ) :
    (ns.putOff rnd sizes).toUsec
      = ns.nextSendingEvent.toUsec + (sizes.map fun n => (ns.registered rnd n).toUsec).sum := by
  have hsum : (sizes.map fun n => (ns.registered rnd n).toUsec).sum
      = (sizes.map fun n => (ns.registered rnd n).sec).sum * 1000000
        + (sizes.map fun n => (ns.registered rnd n).usec).sum := by
    simp only [Timeval.toUsec, List.sum_map_add, List.sum_map_mul_right]
  rw [hsum]
  simp only [NetworkShaper.putOff, Timeval.toUsec]
  ring

lemma putOff_usec_nonneg (hstart : ns.nextSendingEvent.Normalised)
    (hperiods : ∀ n ∈ sizes, (ns.registered rnd n).Normalised) : 0 ≤ (ns.putOff rnd sizes).usec :=
  add_nonneg hstart.1 (List.sum_nonneg fun u hu => by
    obtain ⟨n, hn, rfl⟩ := List.mem_map.mp hu
    exact (hperiods n hn).1)

/-- **What the comparison of the seconds misses.** -/
lemma nextSendingInterval_iff {now : Timeval} (hnext : 0 ≤ ns.nextSendingEvent.usec)
    (hnow : now.Normalised) :
    (networkShaperNextSendingInterval ns now).toUsec
        = max 0 (ns.nextSendingEvent.toUsec - now.toUsec)
      ↔ (ns.nextSendingEvent.sec < now.sec → ns.nextSendingEvent.toUsec ≤ now.toUsec) := by
  obtain ⟨hnow₀, hnow₁⟩ := hnow
  rw [networkShaperNextSendingInterval]
  by_cases hlt : now.timercmpLt ns.nextSendingEvent = true
  · -- the event is not past in seconds, nor in microseconds of the same second
    have hahead : now.sec ≤ ns.nextSendingEvent.sec
        ∧ now.toUsec ≤ ns.nextSendingEvent.toUsec := by
      simp only [Timeval.timercmpLt, Timeval.toUsec] at hlt ⊢
      split_ifs at hlt with hsec <;> simp only [decide_eq_true_eq] at hlt <;> omega
    rw [if_pos hlt, Timeval.timersub_toUsec]
    omega
  · have hpast : now.sec = ns.nextSendingEvent.sec → ns.nextSendingEvent.usec ≤ now.usec := by
      intro hsec
      simpa [Timeval.timercmpLt, hsec] using hlt
    have hle : ns.nextSendingEvent.sec ≤ now.sec := by
      by_contra hgt
      exact hlt (by simp [Timeval.timercmpLt, show now.sec ≠ ns.nextSendingEvent.sec by omega,
        show now.sec < ns.nextSendingEvent.sec by omega])
    have hzero : (⟨0, 0⟩ : Timeval).toUsec = 0 := rfl
    rw [if_neg hlt, hzero]
    simp only [Timeval.toUsec]
    omega

/-- **When the delay is exact.**  However the operations round, as long as the rate is not zero and
each period is registered with less than a million microseconds. -/
theorem delay_exact_iff (rnd : ℚ → ℚ) (ns : NetworkShaper) (sizes : List ℕ)
    (hrate : rnd ns.rate ≠ 0) (hperiods : ∀ n ∈ sizes, (ns.registered rnd n).Normalised)
    (hstart : ns.nextSendingEvent.Normalised) {now : Timeval} (hnow : now.Normalised) :
    DelayExact rnd ns sizes now
      ↔ (ns.nextSendingEvent.sec + (sizes.map fun n => (ns.registered rnd n).sec).sum < now.sec →
        ns.nextSendingEvent.toUsec + (sizes.map fun n => (ns.registered rnd n).toUsec).sum
          ≤ now.toUsec) := by
  obtain ⟨answers, hexec⟩ := exec_registerSentBytes hrate sizes
  have hnext : 0 ≤ ({ ns with nextSendingEvent := ns.putOff rnd sizes }
      : NetworkShaper).nextSendingEvent.usec := putOff_usec_nonneg hstart hperiods
  have hiff := nextSendingInterval_iff hnext hnow
  simp only [putOff_toUsec] at hiff
  rw [DelayExact]
  refine Iff.trans ⟨?_, fun h => ⟨_, answers, hexec, h⟩⟩ hiff
  rintro ⟨ns', answers', hexec', h⟩
  obtain ⟨rfl, -⟩ := ok_unique hexec hexec'
  exact h

end Delay

/-! ## Two short periods -/

/-- A shaper with the default rate that starts at zero. -/
def freshShaper : NetworkShaper := networkShaperCreate none none ⟨0, 0⟩ ⟨0, 0⟩

lemma freshShaper_rate : freshShaper.rate = (8000000 : ℕ) := by
  norm_num [freshShaper, NetworkShaper.rate, networkShaperCreate, DEFAULT_BYTERATE,
    DEFAULT_BYTERATE_MULTIPLYER]

lemma freshShaper_toDouble_rate : toDouble freshShaper.rate = 8000000 := by
  rw [freshShaper_rate, toDouble_natCast (by norm_num)]
  norm_num

/-- 4800000 bytes take 0.6 seconds.  The double next to it is a little smaller, but the product
with a million is rounded up again. -/
lemma freshShaper_registered : freshShaper.registered toDouble 4800000 = ⟨0, 600000⟩ := by
  have hsize : toDouble ((4800000 : ℕ) : ℚ) = 4800000 := by
    rw [toDouble_natCast (by norm_num)]
    norm_num
  have hperiod : toDouble (4800000 / 8000000) = 5404319552844595 * 2 ^ (-53 : ℤ) := by
    have h := toDouble_eq_of_near (x := 4800000 / 8000000) (m := 5404319552844595) (e := -1)
      (by norm_num) (by norm_num) (by norm_num) (by norm_num [abs_lt])
    simpa using h
  have hsame : toDouble (5404319552844595 * 2 ^ (-53 : ℤ)) = 5404319552844595 * 2 ^ (-53 : ℤ) := by
    have h := toDouble_eq_of_near (x := 5404319552844595 * 2 ^ (-53 : ℤ)) (m := 5404319552844595)
      (e := -1) (by norm_num) (by norm_num) (by norm_num) (by norm_num)
    simpa using h
  have husec : toDouble (5404319552844595 * 2 ^ (-53 : ℤ) * 1000000) = 600000 := by
    have h := toDouble_eq_of_near (x := 5404319552844595 * 2 ^ (-53 : ℤ) * 1000000)
      (m := 600000 * 2 ^ 33) (e := 19) (by norm_num) (by norm_num) (by norm_num)
      (by norm_num [abs_lt])
    norm_num at h
    norm_num [h]
  have hsecs : truncate (5404319552844595 * 2 ^ (-53 : ℤ)) = 0 := by
    norm_num [truncate, Int.floor_eq_zero_iff]
  have htrunc : truncate 600000 = 600000 := by
    norm_num [truncate]
  simp only [NetworkShaper.registered, freshShaper_toDouble_rate, hsize, hperiod, hsecs,
    Int.zero_emod, Int.cast_zero, sub_zero, hsame, husec, htrunc]
  rfl

lemma freshShaper_periods :
    ∀ n ∈ [4800000, 4800000], (freshShaper.registered toDouble n).Normalised := by
  intro n hn
  obtain rfl : n = 4800000 := by simpa using hn
  rw [freshShaper_registered]
  decide

lemma freshShaper_rate_ne_zero : toDouble freshShaper.rate ≠ 0 := by
  norm_num [freshShaper_toDouble_rate]

/-- Two periods of 0.6 seconds, looked at after 0.9 seconds. -/
theorem delay_exact_iff_early :
    DelayExact toDouble freshShaper [4800000, 4800000] ⟨0, 900000⟩
      ↔ (freshShaper.nextSendingEvent.sec
          + ([4800000, 4800000].map fun n => (freshShaper.registered toDouble n).sec).sum < 0 →
        freshShaper.nextSendingEvent.toUsec
          + ([4800000, 4800000].map fun n => (freshShaper.registered toDouble n).toUsec).sum
          ≤ (⟨0, 900000⟩ : Timeval).toUsec) :=
  delay_exact_iff toDouble freshShaper _ freshShaper_rate_ne_zero freshShaper_periods (by decide)
    (by decide)

/-- Looked at after 1.1 seconds they are taken for past, although 0.1 seconds are left. -/
theorem not_delay_exact :
    ¬∀ (ns : NetworkShaper) (sizes : List ℕ) (now : Timeval), toDouble ns.rate ≠ 0 →
      (∀ n ∈ sizes, (ns.registered toDouble n).Normalised) → ns.nextSendingEvent.Normalised →
      now.Normalised → DelayExact toDouble ns sizes now := by
  intro hall
  obtain ⟨ns', answers', hexec', hdelay⟩ := hall freshShaper [4800000, 4800000] ⟨1, 100000⟩
    freshShaper_rate_ne_zero freshShaper_periods (by decide) (by decide)
  obtain ⟨answers, hexec⟩ := exec_registerSentBytes freshShaper_rate_ne_zero [4800000, 4800000]
  obtain ⟨rfl, -⟩ := ok_unique hexec hexec'
  have hputOff : freshShaper.putOff toDouble [4800000, 4800000] = ⟨0, 1200000⟩ := by
    simp only [NetworkShaper.putOff, List.map_cons, List.map_nil, freshShaper_registered]
    rfl
  simp only [hputOff, List.map_cons, List.map_nil, freshShaper_registered] at hdelay
  revert hdelay
  decide

end PeerStreamer
