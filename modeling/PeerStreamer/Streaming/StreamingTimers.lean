import PeerStreamer.Foundation.Timeval

/-!
# Timers

`streaming_timers.c`: when the instance wakes up, and what it does then.
-/

namespace PeerStreamer

namespace Timeval

/-- `usec2timeval` -/
def usec2timeval (usec : ℤ) : Timeval := ⟨usec.tdiv 1000000, usec.tmod 1000000⟩

/-- `timeradd_interval` -/
def timeraddInterval (dst : Timeval) (interval : ℤ) : Timeval :=
  dst.timeradd (usec2timeval interval)

variable {t : Timeval} {interval : ℤ}

lemma usec2timeval_of_nonneg (h : 0 ≤ interval) :
    usec2timeval interval = ⟨interval / 1000000, interval % 1000000⟩ := by
  rw [usec2timeval, Int.tdiv_eq_ediv_of_nonneg h, Int.tmod_eq_emod_of_nonneg h]

/-- **Adding an interval** that is not negative. -/
lemma timeraddInterval_of_nonneg (ht : t.Normalised) (h : 0 ≤ interval) :
    (t.timeraddInterval interval).Normalised
      ∧ (t.timeraddInterval interval).toUsec = t.toUsec + interval := by
  obtain ⟨h₀, h₁⟩ := ht
  rw [timeraddInterval, usec2timeval_of_nonneg h, timeradd]
  simp only [Normalised, toUsec]
  split_ifs <;> dsimp only <;> omega

end Timeval

/-- `enum streaming_action` -/
inductive StreamingAction
  | offer
  | inject
  | parseMsg
  | noAction
  deriving DecidableEq, Repr

/-- `struct streaming_timers` -/
structure StreamingTimers where
  sleepTimer : Timeval
  awakeEpoch : Timeval
  offerEpoch : Timeval
  chunkEpoch : Timeval
  loopCounter : UInt32
  deriving DecidableEq, Repr

/-- `UPDATE_EPOCH` -/
def UPDATE_EPOCH : UInt32 := 10

/-- `streaming_timers_init`; the instance has been cleared before. -/
def streamingTimersInit (now : Timeval) (offerInterval : ℤ) : StreamingTimers where
  sleepTimer := ⟨0, 0⟩
  awakeEpoch := now
  offerEpoch := now.timeraddInterval offerInterval
  chunkEpoch := now
  loopCounter := 0

namespace StreamingTimers

/-- `streaming_timers_set_timeout` -/
def setTimeout (psl : StreamingTimers) (interval : ℤ) (userfds : Bool) (tnow : Timeval) :
    StreamingTimers :=
  let awakeEpoch :=
    if userfds && psl.chunkEpoch.timercmpLt psl.offerEpoch then psl.chunkEpoch else psl.offerEpoch
  let sleepTimer :=
    if awakeEpoch.timercmpLt tnow then ⟨0, 0⟩
    else
      let sleep := awakeEpoch.timersub tnow
      let delta := Timeval.usec2timeval interval
      if delta.timercmpLt sleep then delta else sleep
  { psl with awakeEpoch, sleepTimer }

/-- The action of `streaming_timers_state_handler`. -/
def action (psl : StreamingTimers) (dataState : ℤ) (sourceRole : Bool) (currentEpoch : Timeval) :
    StreamingAction :=
  if dataState = 0 then
    if sourceRole && psl.chunkEpoch.timercmpLt currentEpoch then .inject
    else if psl.offerEpoch.timercmpLt currentEpoch then .offer else .noAction
  else if dataState = 1 then .parseMsg
  else if dataState = 2 then .inject
  else .noAction

/-- `streaming_timers_state_handler` -/
def stateHandler (psl : StreamingTimers) (dataState : ℤ) (sourceRole : Bool)
    (currentEpoch : Timeval) : StreamingTimers × StreamingAction :=
  ({ psl with loopCounter := psl.loopCounter + 1 },
    psl.action dataState sourceRole currentEpoch)

/-- `streaming_timers_update_flag` -/
def updateFlag (psl : StreamingTimers) : StreamingTimers × Bool :=
  if psl.loopCounter ≥ UPDATE_EPOCH then ({ psl with loopCounter := 0 }, true) else (psl, false)

/-- `streaming_timers_update_chunk_time` -/
def updateChunkTime (psl : StreamingTimers) (interval : ℤ) : StreamingTimers :=
  { psl with chunkEpoch := psl.chunkEpoch.timeraddInterval interval }

/-- `streaming_timers_update_offer_time` -/
def updateOfferTime (psl : StreamingTimers) (interval : ℤ) : StreamingTimers :=
  { psl with offerEpoch := psl.offerEpoch.timeraddInterval interval }

end StreamingTimers

end PeerStreamer
