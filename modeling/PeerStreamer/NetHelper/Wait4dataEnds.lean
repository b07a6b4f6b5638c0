import PeerStreamer.NetHelper.Shaping
import PeerStreamer.NetHelper.Wait4data

/-!
# The end of the waiting

When no descriptor ever becomes ready, `wait4data` returns because of its timeout.  A round in which
the shaper lets a message through takes one from the queue and leaves the timeout; any other round
takes the interval it waits from the timeout, or is the last.  So the messages that are queued and
the microseconds that are left decrease together (`Waiting.measure`), and bound the number of rounds
(`wait4data_ends`).
-/

namespace PeerStreamer

variable (ic : IntCoding) (env : Surroundings)

/-- A round that is not the last pops a message, or shortens the timeout. -/
def Waiting.Advances (w w' : Waiting) : Prop :=
  (∃ el, w.node.nm.outqueue = el :: w'.node.nm.outqueue) ∨ w'.tout.toUsec < w.tout.toUsec

/-- The call returns 0.  All its rounds but the last advance, and what they send is the beginning of
the queue, in order. -/
structure TimesOut (s : LocalNode) (now : ℤ) (tout : Timeval) (userFds : Option (List Descriptor)) :
    Prop where
  returns : ∃ n fds, wait4data ic env n s now tout userFds = .ok (some (0, fds))
  advances : ∀ n w rounds, wait4dataLoop ic env (wait4dataFds s (userFds.getD [])).2 n
      (wait4dataInit s now tout (userFds.getD [])) = .ok (w, rounds) → w.Continues →
    ∀ w' round, wait4dataRound ic env (wait4dataFds s (userFds.getD [])).2 w = .ok (w', round) →
      w'.Continues → w.Advances w'
  inOrder : ∀ n w rounds, wait4dataLoop ic env (wait4dataFds s (userFds.getD [])).2 n
      (wait4dataInit s now tout (userFds.getD [])) = .ok (w, rounds) →
    ∃ sent, s.nm.outqueue = sent ++ w.node.nm.outqueue
      ∧ rounds.filterMap Round.sent = sent.filterMap (s.datagram ic)

/-- What decreases from round to round: the messages queued and the microseconds left. -/
def Waiting.measure (w : Waiting) : ℕ := w.node.nm.outqueue.length + w.tout.toUsec.toNat

/-- What the rounds keep, when `select` reports nothing but timeouts. -/
structure Waiting.Idle (w : Waiting) : Prop where
  inv : w.node.nm.OutqueueInv
  shaper : w.node.shaper.nextSendingEvent.Normalised
  tout : w.tout.Normalised
  res : w.res = 0

/-! ## The interval of an attempt -/

section Interval

variable {s : LocalNode} {t t' : ℤ}

lemma networkShaperNextSendingInterval_normalised {ns : NetworkShaper}
    (hnext : ns.nextSendingEvent.Normalised) (t : ℤ) :
    (networkShaperNextSendingInterval ns (.gettimeofday t)).Normalised := by
  rw [networkShaperNextSendingInterval]
  split_ifs
  · exact Timeval.timersub_normalised hnext (Timeval.gettimeofday_normalised t)
  · decide

lemma LocalNode.sendingInterval_normalised (hnext : s.shaper.nextSendingEvent.Normalised)
    (t t' : ℤ) : (s.sendingInterval (.gettimeofday t) (.gettimeofday t')).Normalised := by
  rw [sendingInterval]
  split_ifs
  · exact networkShaperNextSendingInterval_normalised hnext t'
  · exact networkShaperNextSendingInterval_normalised hnext t
  · decide

/-- After a message has been let through, the next one may follow at once. -/
lemma LocalNode.sendingInterval_of_due (hnext : s.shaper.nextSendingEvent.Normalised)
    (ht : t ≤ t') (hdue : s.Due (.gettimeofday t)) (hq : s.nm.outqueue ≠ []) :
    s.sendingInterval (.gettimeofday t) (.gettimeofday t') = ⟨0, 0⟩ := by
  have hready : networkManagerOutgoingQueueReady s.nm = true := by
    simpa [networkManagerOutgoingQueueReady] using hq
  have hdue' : s.Due (.gettimeofday t') := by
    rw [due_iff hnext (Timeval.gettimeofday_normalised _), Timeval.gettimeofday_toUsec] at hdue ⊢
    exact hdue.trans ht
  rw [sendingInterval, if_pos hready, if_pos hdue]
  exact hdue'

/-- Otherwise an attempt asks for a positive time. -/
lemma LocalNode.sendingInterval_pos (hnext : s.shaper.nextSendingEvent.Normalised)
    (h : ¬(s.Due (.gettimeofday t) ∧ s.nm.outqueue ≠ [])) :
    0 < (s.sendingInterval (.gettimeofday t) (.gettimeofday t')).toUsec := by
  rw [sendingInterval]
  by_cases hready : networkManagerOutgoingQueueReady s.nm = true
  · have hq : s.nm.outqueue ≠ [] := by simpa [networkManagerOutgoingQueueReady] using hready
    have hdue : ¬ s.Due (.gettimeofday t) := fun hdue => h ⟨hdue, hq⟩
    rw [if_pos hready, if_neg hdue, networkShaperNextSendingInterval]
    rw [due_iff hnext (Timeval.gettimeofday_normalised t)] at hdue
    have hlt : (Timeval.gettimeofday t).toUsec < s.shaper.nextSendingEvent.toUsec := by omega
    rw [if_pos ((Timeval.timercmpLt_iff (Timeval.gettimeofday_normalised t) hnext).mpr hlt),
      Timeval.timersub_toUsec]
    omega
  · rw [if_neg hready]
    decide

end Interval

/-! ## Rounds that time out -/

section Rounds

variable {ic env} {w : Waiting}

/-- **One round** advances, unless it is the last. -/
lemma Waiting.Idle.next_advances (hidle : w.Idle) {maxFd : ℕ} {nm : NetworkManager}
    (hqueue : nm.outqueue = if w.node.Due (.gettimeofday (w.reading env))
      then w.node.nm.outqueue.tail else w.node.nm.outqueue)
    (hc : (w.next env maxFd nm).Continues) :
    w.Advances (w.next env maxFd nm) ∧ (w.next env maxFd nm).measure < w.measure := by
  have hshort : w.Shortens env := by
    by_contra hlong
    have hshaping := hc.1
    rw [next_shaping, if_neg hlong] at hshaping
    cases hshaping
  have htout : (w.next env maxFd nm).tout.toUsec = w.tout.toUsec - (w.interval env).toUsec := by
    rw [next_tout, if_pos hshort, Timeval.timersub_toUsec]
  have hlt : (w.interval env).toUsec < w.tout.toUsec :=
    (Timeval.timercmpLt_iff (LocalNode.sendingInterval_normalised hidle.shaper _ _)
      hidle.tout).mp hshort
  by_cases hdue : w.node.Due (.gettimeofday (w.reading env)) ∧ w.node.nm.outqueue ≠ []
  · -- a message is popped, and nothing waited for
    obtain ⟨el, q, hq⟩ := List.exists_cons_of_ne_nil hdue.2
    have hreading : w.reading env ≤ w.reading' env := by
      simp only [reading']
      omega
    have hzero : (w.interval env).toUsec = 0 := by
      rw [interval, LocalNode.sendingInterval_of_due hidle.shaper hreading hdue.1 hdue.2]
      rfl
    rw [if_pos hdue.1, hq, List.tail_cons] at hqueue
    have hq' : w.node.nm.outqueue = el :: (w.next env maxFd nm).node.nm.outqueue :=
      hq.trans (congrArg (el :: ·) hqueue.symm)
    refine ⟨Or.inl ⟨el, hq'⟩, ?_⟩
    rw [measure, measure, hq', List.length_cons, htout, hzero]
    omega
  · -- the queue stays, and the interval is taken from the timeout
    have hpos : 0 < (w.interval env).toUsec := LocalNode.sendingInterval_pos hidle.shaper hdue
    have hsame : (w.next env maxFd nm).node.nm.outqueue = w.node.nm.outqueue := by
      refine hqueue.trans ?_
      split_ifs with h
      · rw [not_not.mp fun hne => hdue ⟨h, hne⟩, List.tail_nil]
      · rfl
    refine ⟨Or.inr (by omega), ?_⟩
    rw [measure, measure, hsame, htout]
    omega

variable (ic) in
/-- **One round** of a node whose descriptors stay silent. -/
theorem Waiting.Idle.round (hselect : ∀ k t nfds fds timeout,
      (env.select k t nfds fds timeout).res = 0) (hidle : w.Idle) (maxFd : ℕ) :
    ∃ w' round, wait4dataRound ic env maxFd w = .ok (w', round) ∧ w'.Idle
      ∧ w'.node.datagram ic = w.node.datagram ic
      ∧ (w'.Continues → w.Advances w' ∧ w'.measure < w.measure)
      ∧ ∃ sent, w.node.nm.outqueue = sent ++ w'.node.nm.outqueue
        ∧ round.sent.toList = sent.filterMap (w.node.datagram ic) := by
  obtain ⟨nm, hround, hinv, hmessage, hqueue⟩ := wait4dataRound_eq ic env maxFd hidle.inv
  refine ⟨_, _, hround, ⟨hinv, hidle.shaper, ?_, hselect _ _ _ _ _⟩,
    LocalNode.datagram_congr ic hmessage, hidle.next_advances hqueue, ?_⟩
  · rw [next_tout]
    split_ifs
    · exact Timeval.timersub_normalised hidle.tout
        (LocalNode.sendingInterval_normalised hidle.shaper _ _)
    · exact hidle.tout
  · refine ⟨(w.node.sending (.gettimeofday (w.reading env))).toList, ?_, ?_⟩
    · rw [next_node, hqueue, LocalNode.sending]
      split_ifs
      · cases w.node.nm.outqueue <;> rfl
      · rfl
    · cases w.node.sending (.gettimeofday (w.reading env)) <;> rfl

variable (ic) in
/-- **The loop**, by induction on the number of rounds allowed. -/
theorem Waiting.Idle.loop (hselect : ∀ k t nfds fds timeout,
      (env.select k t nfds fds timeout).res = 0) (hidle : w.Idle) (maxFd n : ℕ) :
    ∃ w' rounds, wait4dataLoop ic env maxFd n w = .ok (w', rounds) ∧ w'.Idle
      ∧ (w.measure < n → ¬w'.Continues)
      ∧ ∃ sent, w.node.nm.outqueue = sent ++ w'.node.nm.outqueue
        ∧ rounds.filterMap Round.sent = sent.filterMap (w.node.datagram ic) := by
  induction n generalizing w with
  | zero => exact ⟨w, [], rfl, hidle, fun h => absurd h (Nat.not_lt_zero _), [], rfl, rfl⟩
  | succ n ih =>
      by_cases hc : w.Continues
      · obtain ⟨w₁, round, hround, hidle₁, hdatagram, hadvances, sent₁, hq₁, hsent₁⟩ :=
          hidle.round ic hselect maxFd
        obtain ⟨w', rounds, hloop, hidle', hends, sent, hq, hsent⟩ := ih hidle₁
        refine ⟨w', _, wait4dataLoop_of_continues hc hround hloop, hidle', fun hn hc' => ?_,
          sent₁ ++ sent, ?_, ?_⟩
        · by_cases hc₁ : w₁.Continues
          · exact hends (lt_of_lt_of_le (hadvances hc₁).2 (Nat.lt_succ_iff.mp hn)) hc'
          · rw [wait4dataLoop_of_not_continues n hc₁] at hloop
            cases hloop
            exact hc₁ hc'
        · rw [hq₁, hq, List.append_assoc]
        · rw [List.filterMap_append, ← hsent₁, ← hdatagram, ← hsent]
          cases hround : round.sent <;> simp [hround]
      · exact ⟨w, [], wait4dataLoop_of_not_continues _ hc, hidle, fun _ => hc, [], rfl, rfl⟩

end Rounds

/-- **The waiting ends.**  For every node whose queue is accounted for, every clock, every timeout
and every `select` that reports nothing but timeouts: the call returns 0, its rounds advance, and
what they send is the beginning of the queue. -/
theorem wait4data_ends (ic : IntCoding) {env : Surroundings}
    (hselect : ∀ k t nfds fds timeout, (env.select k t nfds fds timeout).res = 0) {s : LocalNode}
    (hinv : s.nm.OutqueueInv) (hnext : s.shaper.nextSendingEvent.Normalised) (now : ℤ)
    {tout : Timeval} (htout : tout.Normalised) (userFds : Option (List Descriptor)) :
    TimesOut ic env s now tout userFds := by
  have hinit : (wait4dataInit s now tout (userFds.getD [])).Idle := ⟨hinv, hnext, htout, rfl⟩
  have hloop := fun n => hinit.loop ic hselect (wait4dataFds s (userFds.getD [])).2 n
  constructor
  · -- more rounds than there are messages and microseconds
    obtain ⟨w, rounds, hrounds, hidle, hends, -⟩ :=
      hloop ((wait4dataInit s now tout (userFds.getD [])).measure + 1)
    have hanswer : wait4dataAnswer userFds w
        = .ok (0, userFds.map (·.map fun fd => (fd.val : ℤ))) := by
      unfold wait4dataAnswer
      rw [hidle.res, if_pos le_rfl]
    refine ⟨(wait4dataInit s now tout (userFds.getD [])).measure + 1,
      userFds.map (·.map fun fd => (fd.val : ℤ)), ?_⟩
    rw [wait4data]
    simp only [hrounds, Eval.ok_bind, if_neg (hends (Nat.lt_succ_self _)), hanswer]
    rfl
  · intro n w rounds hn hc w' round hround hc'
    obtain ⟨w₁, rounds₁, hrounds, hidle, -⟩ := hloop n
    obtain ⟨rfl, -⟩ := ok_unique hrounds hn
    obtain ⟨w₂, round₂, hround₂, -, -, hadvances, -⟩ := hidle.round ic hselect _
    obtain ⟨rfl, -⟩ := ok_unique hround₂ hround
    exact (hadvances hc').1
  · intro n w rounds hn
    obtain ⟨w₁, rounds₁, hrounds, -, -, hsent⟩ := hloop n
    obtain ⟨rfl, rfl⟩ := ok_unique hrounds hn
    exact hsent

/-! ## Silence -/

/-- Surroundings in which no descriptor ever becomes readable. -/
def silence : Surroundings where
  pause _ := (1, 1)
  select _ now _ _ timeout := ⟨0, ∅, now + timeout.toUsec⟩

/-- Two packets, and ten milliseconds. -/
theorem wait4data_ends_silence :
    TimesOut bigEndian silence twoPackets 0 ⟨0, 10000⟩ (some [⟨5, by decide⟩]) :=
  wait4data_ends bigEndian (fun _ _ _ _ _ => rfl) twoPackets_inv
    (Timeval.gettimeofday_normalised 0) 0 (by decide) (some [⟨5, by decide⟩])

end PeerStreamer
