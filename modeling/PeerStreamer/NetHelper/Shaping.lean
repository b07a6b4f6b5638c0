import PeerStreamer.Foundation.Pacing
import PeerStreamer.NetHelper.NetworkShaper

/-!
# The sending rate

A run of sending attempts at times that never go back.  What it sends is the queue, one message for
each attempt from the shaper's `next_sending_event` on (`schedule`), however fast they follow each
other: so the rate of the shaper bounds what is sent only if the attempts are paced by whoever makes
them (`shaper_rate_iff`).
-/

namespace PeerStreamer

/-- A sending attempt: the two readings of the clock, in microseconds. -/
structure Attempt where
  now : ℤ
  now' : ℤ

/-- The clock never goes back. -/
def NonDecreasing (attempts : List Attempt) : Prop :=
  (attempts.flatMap fun a => [a.now, a.now']).Pairwise (· ≤ ·)

instance (attempts : List Attempt) : Decidable (NonDecreasing attempts) :=
  inferInstanceAs (Decidable (List.Pairwise _ _))

/-- A time in seconds. -/
def seconds (usec : ℤ) : ℚ := usec / 1000000

variable (ic : IntCoding)

/-- One attempt, and the datagram it sends. -/
def sendAttemptStep (s : LocalNode) (a : Attempt) : Eval (LocalNode × Option Bytes) := do
  let (s, _, sent) ← netHelperSendAttempt ic s (.gettimeofday a.now) (.gettimeofday a.now')
  return (s, sent)

/-- A datagram sent by an attempt, as a departure. -/
def departure (a : Attempt) (datagram : Bytes) : ℚ × ℚ := (seconds a.now, datagram.length)

/-- When the datagrams of a run were sent, and how large they were. -/
def departures (attempts : List Attempt) (outs : List (Option Bytes)) : List (ℚ × ℚ) :=
  (attempts.zip outs).filterMap fun p => p.2.map (departure p.1)

/-- The attempts made from `next_sending_event` on. -/
def dueAttempts (s : LocalNode) (attempts : List Attempt) : List Attempt :=
  attempts.filter fun a => s.shaper.nextSendingEvent.toUsec ≤ a.now

/-- The messages of the queue, one at each of these attempts. -/
def schedule (s : LocalNode) (attempts : List Attempt) : List (ℚ × ℚ) :=
  ((dueAttempts s attempts).zip s.nm.outqueue).filterMap fun p =>
    (s.datagram ic p.2).map (departure p.1)

/-! ## What a run sends -/

section Runs

variable {ic} {s : LocalNode} {attempts : List Attempt}

lemma seconds_le_seconds {a b : ℤ} : seconds a ≤ seconds b ↔ a ≤ b := by
  rw [seconds, seconds, div_le_div_iff_of_pos_right (by norm_num), Int.cast_le]

lemma NonDecreasing.pairwise (h : NonDecreasing attempts) :
    attempts.Pairwise fun a b => a.now ≤ b.now := by
  refine (List.pairwise_flatMap.mp h).2.imp fun {a b} hab => ?_
  exact hab a.now (by simp) b.now (by simp)

/-- An attempt that sends nothing is not on the schedule. -/
lemma schedule_cons_of_not_due {a : Attempt}
    (h : ¬ s.shaper.nextSendingEvent.toUsec ≤ a.now) :
    schedule ic s (a :: attempts) = schedule ic s attempts := by
  simp [schedule, dueAttempts, h]

/-- An attempt that is due takes the first message. -/
lemma schedule_cons_of_due {a : Attempt} {el : QueueElem} {q : MsgList}
    (h : s.shaper.nextSendingEvent.toUsec ≤ a.now) (hq : s.nm.outqueue = el :: q) :
    schedule ic s (a :: attempts)
      = ((s.datagram ic el).map (departure a)).toList
        ++ ((dueAttempts s attempts).zip q).filterMap fun p =>
          (s.datagram ic p.2).map (departure p.1) := by
  rw [schedule, hq, dueAttempts, List.filter_cons_of_pos (by simpa using h), List.zip_cons_cons,
    List.filterMap_cons]
  cases (s.datagram ic el).map (departure a) <;> rfl

lemma schedule_of_empty (hq : s.nm.outqueue = []) : schedule ic s attempts = [] := by
  rw [schedule, hq, List.zip_nil_right]
  rfl

/-- **What a run sends** is on the schedule, and the whole schedule is sent. -/
theorem exec_sendAttemptStep (ic : IntCoding) {s : LocalNode} (hinv : s.nm.OutqueueInv)
    (hnext : s.shaper.nextSendingEvent.Normalised) (attempts : List Attempt) :
    ∃ s' outs, exec (sendAttemptStep ic) s attempts = .ok (s', outs)
      ∧ departures attempts outs = schedule ic s attempts := by
  induction attempts generalizing s with
  | nil => exact ⟨s, [], rfl, by simp [departures, schedule, dueAttempts]⟩
  | cons a attempts ih =>
      obtain ⟨nm, hattempt, hinv', hmessage, hqueue⟩ := netHelperSendAttempt_eq ic hinv
        (.gettimeofday a.now) (.gettimeofday a.now')
      obtain ⟨s', outs, hexec, hsent⟩ := ih (s := { s with nm }) hinv' hnext
      have hstep : sendAttemptStep ic s a = .ok ({ s with nm },
          (s.sending (.gettimeofday a.now)).bind (s.datagram ic)) := by
        rw [sendAttemptStep, hattempt]
        rfl
      refine ⟨s', _, exec_cons_eq_ok.mpr ⟨_, _, outs, hstep, hexec, rfl⟩, ?_⟩
      have hdatagram := LocalNode.datagram_congr ic hmessage
      have hdue := LocalNode.due_iff hnext (Timeval.gettimeofday_normalised a.now)
      rw [Timeval.gettimeofday_toUsec] at hdue
      have hcons : departures (a :: attempts)
          ((s.sending (.gettimeofday a.now)).bind (s.datagram ic) :: outs)
          = (((s.sending (.gettimeofday a.now)).bind (s.datagram ic)).map (departure a)).toList
            ++ departures attempts outs := by
        rw [departures, List.zip_cons_cons, List.filterMap_cons]
        cases ((s.sending (.gettimeofday a.now)).bind (s.datagram ic)) <;> rfl
      rw [hcons, hsent]
      by_cases h : s.Due (.gettimeofday a.now)
      · rw [if_pos h] at hqueue
        rw [LocalNode.sending, if_pos h]
        cases hq : s.nm.outqueue with
        | nil =>
            rw [hq] at hqueue
            rw [schedule_of_empty hq, schedule_of_empty hqueue]
            rfl
        | cons el q =>
            rw [hq] at hqueue
            rw [schedule_cons_of_due (hdue.mp h) hq, schedule, hdatagram, hqueue]
            rfl
      · rw [if_neg h] at hqueue
        rw [LocalNode.sending, if_neg h, schedule_cons_of_not_due (mt hdue.mpr h), schedule,
          schedule, hdatagram, hqueue]
        rfl

/-- What is scheduled is in the order of time. -/
lemma schedule_pairwise (h : NonDecreasing attempts) :
    (schedule ic s attempts).Pairwise (·.1 ≤ ·.1) := by
  have hdue : (dueAttempts s attempts).Pairwise fun a b => a.now ≤ b.now :=
    h.pairwise.sublist List.filter_sublist
  have hzip := pairwise_zip_fst hdue s.nm.outqueue
  refine List.Pairwise.filterMap _ (fun p q hpq x hx y hy => ?_) hzip
  obtain ⟨b, -, rfl⟩ := Option.map_eq_some_iff.mp hx
  obtain ⟨b', -, rfl⟩ := Option.map_eq_some_iff.mp hy
  exact seconds_le_seconds.mpr hpq

/-- What is scheduled leaves from `next_sending_event` on, and has a size. -/
lemma mem_schedule {x : ℚ × ℚ} (hx : x ∈ schedule ic s attempts) :
    seconds s.shaper.nextSendingEvent.toUsec ≤ x.1 ∧ 0 ≤ x.2 := by
  obtain ⟨⟨a, el⟩, hp, hx⟩ := List.mem_filterMap.mp hx
  obtain ⟨b, -, rfl⟩ := Option.map_eq_some_iff.mp hx
  have ha := List.of_mem_filter (List.of_mem_zip hp).1
  exact ⟨seconds_le_seconds.mpr (by simpa using ha), Nat.cast_nonneg _⟩

end Runs

/-- **When the shaper bounds the rate.**  For every node whose queue is accounted for, every
positive rate, and every sequence of attempts on a clock that never goes back: the attempts succeed,
and what they send from `next_sending_event` on is bounded by the rate if and only if the schedule
is paced, that is, if each attempt that sends something is made no earlier than the rate allows for
what was queued before it. -/
theorem shaper_rate_iff (ic : IntCoding) (s : LocalNode) (hinv : s.nm.OutqueueInv)
    (hnext : s.shaper.nextSendingEvent.Normalised) (hrate : 0 < s.shaper.rate)
    (attempts : List Attempt) (hclock : NonDecreasing attempts) :
    ∃ s' outs, exec (sendAttemptStep ic) s attempts = .ok (s', outs)
      ∧ (RateBounded s.shaper.rate (seconds s.shaper.nextSendingEvent.toUsec)
            (departures attempts outs)
          ↔ Paced s.shaper.rate (seconds s.shaper.nextSendingEvent.toUsec)
            (schedule ic s attempts)) := by
  obtain ⟨s', outs, hexec, hsent⟩ := exec_sendAttemptStep ic hinv hnext attempts
  refine ⟨s', outs, hexec, ?_⟩
  rw [hsent]
  exact rateBounded_iff_paced hrate.le (schedule_pairwise hclock)
    (fun x hx => (mem_schedule hx).2) fun x hx => (mem_schedule hx).1

/-! ## An unpaced burst -/

/-- A manager whose queue holds two packets of one byte to a peer. -/
def twoSent : NetworkManager :=
  ((networkManagerCreate ⟨none, none⟩).enqueued ⟨[65], 6000, 3⟩ ⟨[66], 6001, -1⟩ [7] 0 0).enqueued
    ⟨[65], 6000, 3⟩ ⟨[66], 6001, -1⟩ [8] 0 0

/-- A node with the default rate and this manager. -/
def twoPackets : LocalNode where
  fd := ⟨3, by decide⟩
  nm := twoSent
  shaper := networkShaperCreate none none (.gettimeofday 0) (.gettimeofday 0)
  sendingBufferLen := 1300

lemma twoPackets_inv : twoPackets.nm.OutqueueInv :=
  ((networkManagerCreate_outqueueInv _).enqueued (by decide)).enqueued (by decide)

lemma twoPackets_rate : 0 < twoPackets.shaper.rate := by
  norm_num [twoPackets, NetworkShaper.rate, networkShaperCreate, DEFAULT_BYTERATE,
    DEFAULT_BYTERATE_MULTIPLYER]

lemma twoPackets_schedule :
    schedule bigEndian twoPackets [⟨0, 0⟩, ⟨0, 0⟩] = [(0, 12), (0, 12)] := by
  decide +kernel

/-- With a second between the two attempts. -/
theorem shaper_rate_iff_slow :
    ∃ s' outs, exec (sendAttemptStep bigEndian) twoPackets [⟨0, 0⟩, ⟨1000000, 1000000⟩]
        = .ok (s', outs)
      ∧ (RateBounded twoPackets.shaper.rate (seconds twoPackets.shaper.nextSendingEvent.toUsec)
            (departures [⟨0, 0⟩, ⟨1000000, 1000000⟩] outs)
          ↔ Paced twoPackets.shaper.rate (seconds twoPackets.shaper.nextSendingEvent.toUsec)
            (schedule bigEndian twoPackets [⟨0, 0⟩, ⟨1000000, 1000000⟩])) :=
  shaper_rate_iff bigEndian twoPackets twoPackets_inv (Timeval.gettimeofday_normalised 0)
    twoPackets_rate _ (by decide)

/-- Two attempts at the same time send 24 bytes, and the bound is twelve. -/
theorem not_shaper_rate :
    ¬ ∀ (ic : IntCoding) (s : LocalNode) (attempts : List Attempt) (s' : LocalNode)
      (outs : List (Option Bytes)), ic.Inverse (2 ^ 32) → s.nm.OutqueueInv →
      s.shaper.nextSendingEvent.Normalised → 0 < s.shaper.rate → NonDecreasing attempts →
      exec (sendAttemptStep ic) s attempts = .ok (s', outs) →
      RateBounded s.shaper.rate (seconds s.shaper.nextSendingEvent.toUsec)
        (departures attempts outs) := by
  intro h
  have hnext := Timeval.gettimeofday_normalised 0
  obtain ⟨s', outs, hexec, hsent⟩ := exec_sendAttemptStep bigEndian twoPackets_inv hnext
    [⟨0, 0⟩, ⟨0, 0⟩]
  have hstart : seconds twoPackets.shaper.nextSendingEvent.toUsec = 0 := by
    norm_num [seconds, twoPackets, networkShaperCreate]
  have hbound := h bigEndian twoPackets _ s' outs bigEndian_inverse twoPackets_inv hnext
    twoPackets_rate (by decide) hexec 0 hstart.le
  rw [hsent, twoPackets_schedule, hstart] at hbound
  norm_num [upTo, totalSize, lastSize] at hbound

end PeerStreamer
