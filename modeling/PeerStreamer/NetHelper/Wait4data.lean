import PeerStreamer.NetHelper.NetworkShaper

/-!
# Waiting for data

`wait4data` of `net_helper-x.c`: a loop that alternates between a sending attempt and a `select` on
the socket of the node and the descriptors of the user, for as long as the attempts ask for less
than what is left of the timeout.

`select` and the clock are an argument, `Surroundings`, of which `Posix` is assumed.  The set of
descriptors is built once, before the loop, and `select` overwrites it: a round that times out
leaves it empty, so all rounds watch all descriptors only if there is one round
(`wait4data_watches_iff`).
-/

namespace PeerStreamer

/-! ## The surroundings -/

/-- What `select` answers: its result, the set it leaves, and the time at which it returns. -/
structure SelectAnswer where
  res : ℤ
  fds : Finset Descriptor
  time : ℤ

/-- What a call depends on, for each of its rounds: how long it takes to the two readings of the
clock, and `select`.  Times are in microseconds. -/
structure Surroundings where
  pause : ℕ → ℕ × ℕ
  select : (round : ℕ) → (now : ℤ) → (nfds : ℕ) → (readfds : Finset Descriptor) →
    (timeout : Timeval) → SelectAnswer

/-- What POSIX says about `select`, when `readable fd t` says that `fd` is readable at the time `t`:
it returns as soon as a descriptor it watches is readable, with those that are; if the time is up
before, it returns 0 and clears the set. -/
structure Posix (env : Surroundings) (readable : Descriptor → ℤ → Prop) : Prop where
  stays : ∀ fd t t', readable fd t → t ≤ t' → readable fd t'
  ready : ∀ k now nfds fds timeout, 0 ≤ timeout.toUsec →
    (∃ fd ∈ fds, fd.val < nfds ∧ readable fd (now + timeout.toUsec)) →
    0 < (env.select k now nfds fds timeout).res
      ∧ (env.select k now nfds fds timeout).fds.Nonempty
      ∧ ∀ fd, fd ∈ (env.select k now nfds fds timeout).fds
        ↔ fd ∈ fds ∧ fd.val < nfds ∧ readable fd (env.select k now nfds fds timeout).time
  timedOut : ∀ k now nfds fds timeout, 0 ≤ timeout.toUsec →
    (∀ fd ∈ fds, fd.val < nfds → ¬ readable fd (now + timeout.toUsec)) →
    (env.select k now nfds fds timeout).res = 0 ∧ (env.select k now nfds fds timeout).fds = ∅
      ∧ now + timeout.toUsec ≤ (env.select k now nfds fds timeout).time

/-! ## The function -/

/-- The variables of the loop, the node and the time. -/
structure Waiting where
  node : LocalNode
  now : ℤ
  tout : Timeval
  fds : Finset Descriptor
  shaping : Bool
  res : ℤ
  rounds : ℕ

/-- The condition of the loop. -/
def Waiting.Continues (w : Waiting) : Prop := w.shaping = true ∧ w.res = 0

instance (w : Waiting) : Decidable w.Continues := inferInstanceAs (Decidable (_ ∧ _))

/-- What a round did: the set it handed to `select`, and the datagram it sent. -/
structure Round where
  watched : Finset Descriptor
  sent : Option Bytes

/-- The descriptors the call watches, and the largest of them. -/
def wait4dataFds (s : LocalNode) (userFds : List Descriptor) : Finset Descriptor × ℕ :=
  userFds.foldl (fun (fds, maxFd) fd => (insert fd fds, if fd.val > maxFd then fd.val else maxFd))
    ({s.fd}, s.fd.val)

variable (ic : IntCoding) (env : Surroundings)

/-- The body of the loop. -/
def wait4dataRound (maxFd : ℕ) (w : Waiting) : Eval (Waiting × Round) := do
  let now := w.now + (env.pause w.rounds).1
  let now' := now + (env.pause w.rounds).2
  let (node, sendingInterval, sent) ←
    netHelperSendAttempt ic w.node (.gettimeofday now) (.gettimeofday now')
  let (tout, sleepTime, shaping) :=
    if sendingInterval.timercmpLt w.tout then
      (w.tout.timersub sendingInterval, sendingInterval, w.shaping)
    else (w.tout, w.tout, false)
  let answer := env.select w.rounds now' (maxFd + 1) w.fds sleepTime
  return ({ node, tout, shaping, now := answer.time, fds := answer.fds, res := answer.res,
            rounds := w.rounds + 1 }, ⟨w.fds, sent⟩)

/-- The loop, for at most `n` rounds. -/
def wait4dataLoop (maxFd : ℕ) : (n : ℕ) → Waiting → Eval (Waiting × List Round)
  | 0, w => .ok (w, [])
  | n + 1, w =>
      if w.Continues then do
        let (w, round) ← wait4dataRound ic env maxFd w
        let (w, rounds) ← wait4dataLoop maxFd n w
        return (w, round :: rounds)
      else .ok (w, [])

/-- The variables before the loop. -/
def wait4dataInit (s : LocalNode) (now : ℤ) (tout : Timeval) (userFds : List Descriptor) :
    Waiting where
  node := s
  now := now
  tout := tout
  fds := (wait4dataFds s userFds).1
  shaping := true
  res := 0
  rounds := 0

/-- What follows the loop: the value returned, and the array `user_fds` as it is left (`none` for
NULL, and without its final -1). -/
def wait4dataAnswer (userFds : Option (List Descriptor)) (w : Waiting) :
    Eval (ℤ × Option (List ℤ)) :=
  if w.res ≤ 0 then .ok (w.res, userFds.map (·.map fun fd => (fd.val : ℤ)))
  else if w.node.fd ∈ w.fds then .ok (1, userFds.map (·.map fun fd => (fd.val : ℤ)))
  else
    match userFds with
    | none => .error .nullDereference
    | some fds => .ok (2, some (fds.map fun fd => if fd ∈ w.fds then (fd.val : ℤ) else -2))

/-- `wait4data`, in at most `n` rounds: `none` if they do not suffice. -/
def wait4data (n : ℕ) (s : LocalNode) (now : ℤ) (tout : Timeval)
    (userFds : Option (List Descriptor)) : Eval (Option (ℤ × Option (List ℤ))) := do
  let maxFd := (wait4dataFds s (userFds.getD [])).2
  let (w, _) ← wait4dataLoop ic env maxFd n (wait4dataInit s now tout (userFds.getD []))
  if w.Continues then return none
  else
    let answer ← wait4dataAnswer userFds w
    return some answer

/-! ## One round -/

namespace Waiting

variable (w : Waiting)

/-- The two readings of the clock in the next round. -/
def reading : ℤ := w.now + (env.pause w.rounds).1

def reading' : ℤ := w.reading env + (env.pause w.rounds).2

/-- What the attempt of the next round asks the node to wait. -/
def interval : Timeval :=
  w.node.sendingInterval (.gettimeofday (w.reading env)) (.gettimeofday (w.reading' env))

/-- The next round has something of the timeout left over. -/
def Shortens : Prop := (w.interval env).timercmpLt w.tout = true

instance : Decidable (w.Shortens env) := inferInstanceAs (Decidable (_ = _))

/-- What `select` answers in the next round. -/
def answer (maxFd : ℕ) : SelectAnswer :=
  env.select w.rounds (w.reading' env) (maxFd + 1) w.fds
    (if w.Shortens env then w.interval env else w.tout)

variable {w env} in
lemma answer_of_shortens (maxFd : ℕ) (h : w.Shortens env) :
    w.answer env maxFd
      = env.select w.rounds (w.reading' env) (maxFd + 1) w.fds (w.interval env) := by
  rw [answer, if_pos h]

variable {w env} in
lemma answer_of_not_shortens (maxFd : ℕ) (h : ¬ w.Shortens env) :
    w.answer env maxFd = env.select w.rounds (w.reading' env) (maxFd + 1) w.fds w.tout := by
  rw [answer, if_neg h]

/-- The variables after a round that leaves the network manager `nm`. -/
def next (maxFd : ℕ) (nm : NetworkManager) : Waiting where
  node := { w.node with nm }
  now := (w.answer env maxFd).time
  tout := if w.Shortens env then w.tout.timersub (w.interval env) else w.tout
  fds := (w.answer env maxFd).fds
  shaping := if w.Shortens env then w.shaping else false
  res := (w.answer env maxFd).res
  rounds := w.rounds + 1

@[simp] lemma next_node (maxFd : ℕ) (nm : NetworkManager) :
    (w.next env maxFd nm).node = { w.node with nm } := rfl

@[simp] lemma next_tout (maxFd : ℕ) (nm : NetworkManager) : (w.next env maxFd nm).tout
    = if w.Shortens env then w.tout.timersub (w.interval env) else w.tout := rfl

@[simp] lemma next_shaping (maxFd : ℕ) (nm : NetworkManager) :
    (w.next env maxFd nm).shaping = if w.Shortens env then w.shaping else false := rfl

@[simp] lemma next_res (maxFd : ℕ) (nm : NetworkManager) :
    (w.next env maxFd nm).res = (w.answer env maxFd).res := rfl

@[simp] lemma next_fds (maxFd : ℕ) (nm : NetworkManager) :
    (w.next env maxFd nm).fds = (w.answer env maxFd).fds := rfl

end Waiting

/-- **One round** makes an attempt and then waits, for what the attempt asks for or for what is left
of the timeout. -/
theorem wait4dataRound_eq (maxFd : ℕ) {w : Waiting} (hinv : w.node.nm.OutqueueInv) :
    ∃ nm, wait4dataRound ic env maxFd w = .ok (w.next env maxFd nm,
        ⟨w.fds, (w.node.sending (.gettimeofday (w.reading env))).bind (w.node.datagram ic)⟩)
      ∧ nm.OutqueueInv ∧ (∀ el, nm.message el = w.node.nm.message el)
      ∧ nm.outqueue = if w.node.Due (.gettimeofday (w.reading env)) then w.node.nm.outqueue.tail
        else w.node.nm.outqueue := by
  obtain ⟨nm, hattempt, hkeep⟩ := netHelperSendAttempt_eq ic hinv
    (.gettimeofday (w.reading env)) (.gettimeofday (w.reading' env))
  refine ⟨nm, ?_, hkeep⟩
  have hround : wait4dataRound ic env maxFd w = _ := congrArg (· >>= _) hattempt
  rw [hround, Eval.ok_bind]
  cases hlt : (w.interval env).timercmpLt w.tout with
  | true =>
      have hshort : w.Shortens env := hlt
      simp only [Waiting.next, Waiting.answer, if_pos hshort]
      rw [Waiting.interval] at hlt ⊢
      simp only [hlt]
      rfl
  | false =>
      have hlong : ¬ w.Shortens env := by rw [Waiting.Shortens, hlt]; exact Bool.false_ne_true
      simp only [Waiting.next, Waiting.answer, if_neg hlong]
      rw [Waiting.interval] at hlt
      simp only [hlt]
      rfl

/-! ## What has to hold -/

/-- Every round watches the socket of the node and all descriptors of the user; so if the socket
becomes readable before the timeout has elapsed, and no user descriptor does so earlier, the call
returns 1. -/
structure WatchesAll (readable : Descriptor → ℤ → Prop) (s : LocalNode) (now : ℤ) (tout : Timeval)
    (userFds : Option (List Descriptor)) : Prop where
  watched : ∀ n w rounds, wait4dataLoop ic env (wait4dataFds s (userFds.getD [])).2 n
      (wait4dataInit s now tout (userFds.getD [])) = .ok (w, rounds) →
    ∀ round ∈ rounds, s.fd ∈ round.watched ∧ ∀ fd ∈ userFds.getD [], fd ∈ round.watched
  answers : ∀ t, readable s.fd t → t < now + tout.toUsec →
    (∀ fd ∈ userFds.getD [], ∀ t, readable fd t → readable s.fd t) →
    ∃ n fds, wait4data ic env n s now tout userFds = .ok (some (1, fds))

/-- One round decides: the first attempt asks for at least the timeout, or some descriptor becomes
readable within what it asks for. -/
def OneRound (readable : Descriptor → ℤ → Prop) (s : LocalNode) (now : ℤ) (tout : Timeval)
    (userFds : List Descriptor) : Prop :=
  let w := wait4dataInit s now tout userFds
  ¬ w.Shortens env ∨ ∃ fd, (fd = s.fd ∨ fd ∈ userFds)
    ∧ readable fd (w.reading' env + (w.interval env).toUsec)

section Rounds

variable {ic env} {readable : Descriptor → ℤ → Prop} {s : LocalNode} {now : ℤ} {tout : Timeval}
  {userFds : List Descriptor}

/-- All descriptors are in the set, and `select` is told of a range that holds them. -/
lemma mem_wait4dataFds (s : LocalNode) (userFds : List Descriptor) (fd : Descriptor) :
    (fd ∈ (wait4dataFds s userFds).1 ↔ fd = s.fd ∨ fd ∈ userFds)
      ∧ (fd ∈ (wait4dataFds s userFds).1 → fd.val < (wait4dataFds s userFds).2 + 1) := by
  induction userFds using List.reverseRecOn with
  | nil =>
      simp only [wait4dataFds, List.foldl_nil, Finset.mem_singleton, List.not_mem_nil, or_false,
        true_and]
      rintro rfl
      exact Nat.lt_succ_self _
  | append_singleton fds u ih =>
      obtain ⟨hmem, hlt⟩ := ih
      have hstep : wait4dataFds s (fds ++ [u]) = (insert u (wait4dataFds s fds).1,
          if u.val > (wait4dataFds s fds).2 then u.val else (wait4dataFds s fds).2) := by
        simp [wait4dataFds, List.foldl_append]
      rw [hstep]
      refine ⟨?_, fun h => ?_⟩
      · simp only [Finset.mem_insert, hmem, List.mem_append, List.mem_singleton]
        tauto
      · rcases Finset.mem_insert.mp h with rfl | h
        · split_ifs <;> omega
        · have := hlt h
          split_ifs <;> omega

/-- The interval an attempt answers with is not negative. -/
lemma LocalNode.sendingInterval_nonneg (hnext : s.shaper.nextSendingEvent.Normalised) (t t' : ℤ) :
    0 ≤ (s.sendingInterval (.gettimeofday t) (.gettimeofday t')).toUsec := by
  have hwait : ∀ t, 0 ≤ (networkShaperNextSendingInterval s.shaper (.gettimeofday t)).toUsec := by
    intro t
    rw [networkShaperNextSendingInterval]
    split_ifs with h
    · rw [Timeval.timercmpLt_iff (Timeval.gettimeofday_normalised t) hnext] at h
      rw [Timeval.timersub_toUsec]
      omega
    · decide
  rw [sendingInterval]
  split_ifs
  · exact hwait t'
  · exact hwait t
  · decide

/-- `select` on all descriptors, when one of them is readable in time: what it reports is what is
readable when it returns. -/
lemma Posix.select_all (hposix : Posix env readable) (k : ℕ) (t : ℤ) {timeout : Timeval}
    (htimeout : 0 ≤ timeout.toUsec)
    (hready : ∃ fd, (fd = s.fd ∨ fd ∈ userFds) ∧ readable fd (t + timeout.toUsec))
    {answer : SelectAnswer} (hanswer : answer = env.select k t ((wait4dataFds s userFds).2 + 1)
      (wait4dataFds s userFds).1 timeout) :
    0 < answer.res ∧ answer.fds.Nonempty
      ∧ ∃ t', ∀ fd, fd ∈ answer.fds ↔ (fd = s.fd ∨ fd ∈ userFds) ∧ readable fd t' := by
  obtain ⟨fd, hfd, hr⟩ := hready
  have hmem := (mem_wait4dataFds s userFds fd).1.mpr hfd
  obtain ⟨hpos, hne, hfds⟩ := hposix.ready k t _ _ timeout htimeout
    ⟨fd, hmem, (mem_wait4dataFds s userFds fd).2 hmem, hr⟩
  rw [← hanswer] at hpos hne hfds
  refine ⟨hpos, hne, answer.time, fun fd => ?_⟩
  obtain ⟨hin, hlt⟩ := mem_wait4dataFds s userFds fd
  rw [hfds, ← hin]
  exact ⟨fun h => ⟨h.1, h.2.2⟩, fun h => ⟨h.1, hlt h.1, h.2⟩⟩

/-- **If one round decides**, the loop ends after the first, and what is readable before the timeout
has been seen. -/
theorem OneRound.next (h : OneRound env readable s now tout userFds)
    (hnext : s.shaper.nextSendingEvent.Normalised) (hposix : Posix env readable)
    (htout : 0 ≤ tout.toUsec) (nm : NetworkManager) {w : Waiting}
    (hw : w = (wait4dataInit s now tout userFds).next env (wait4dataFds s userFds).2 nm) :
    ¬ w.Continues ∧ ((∃ fd, (fd = s.fd ∨ fd ∈ userFds) ∧ readable fd (now + tout.toUsec)) →
      0 < w.res ∧ w.fds.Nonempty
        ∧ ∃ t, ∀ fd, fd ∈ w.fds ↔ (fd = s.fd ∨ fd ∈ userFds) ∧ readable fd t) := by
  subst hw
  by_cases hshort : (wait4dataInit s now tout userFds).Shortens env
  · obtain hlong | hready := h
    · exact absurd hshort hlong
    · have hall := hposix.select_all _ _ (LocalNode.sendingInterval_nonneg hnext _ _) hready
        (Waiting.answer_of_shortens _ hshort)
      refine ⟨fun hc => ?_, fun _ => hall⟩
      have hzero := hc.2
      rw [Waiting.next_res] at hzero
      omega
  · refine ⟨fun hc => ?_, ?_⟩
    · have hshaping := hc.1
      rw [Waiting.next_shaping, if_neg hshort] at hshaping
      cases hshaping
    · rintro ⟨fd, hfd, hr⟩
      have hlater : now + tout.toUsec
          ≤ (wait4dataInit s now tout userFds).reading' env + tout.toUsec := by
        simp only [Waiting.reading', Waiting.reading, wait4dataInit]
        omega
      exact hposix.select_all _ _ htout ⟨fd, hfd, hposix.stays fd _ _ hr hlater⟩
        (Waiting.answer_of_not_shortens _ hshort)

/-- **If it does not**, the loop goes on with an empty set. -/
theorem next_of_not_oneRound (h : ¬ OneRound env readable s now tout userFds)
    (hnext : s.shaper.nextSendingEvent.Normalised) (hposix : Posix env readable)
    (nm : NetworkManager) {w : Waiting}
    (hw : w = (wait4dataInit s now tout userFds).next env (wait4dataFds s userFds).2 nm) :
    w.Continues ∧ w.fds = ∅ := by
  subst hw
  obtain ⟨hshort, hready⟩ := not_or.mp h
  have hshort := not_not.mp hshort
  have hanswer := Waiting.answer_of_shortens (wait4dataFds s userFds).2 hshort
  obtain ⟨hres, hfds, -⟩ := hposix.timedOut _ _ _ _ _
    (LocalNode.sendingInterval_nonneg hnext _ _)
    fun fd hfd _ hr => hready ⟨fd, (mem_wait4dataFds s userFds fd).1.mp hfd, hr⟩
  refine ⟨⟨?_, ?_⟩, ?_⟩
  · rw [Waiting.next_shaping, if_pos hshort]
    rfl
  · rw [Waiting.next_res, hanswer]
    exact hres
  · rw [Waiting.next_fds, hanswer]
    exact hfds

/-- The loop from a state it does not leave. -/
lemma wait4dataLoop_of_continues {maxFd : ℕ} {w w' w'' : Waiting} {round : Round}
    {rounds : List Round} {n : ℕ} (hc : w.Continues)
    (hround : wait4dataRound ic env maxFd w = .ok (w', round))
    (hloop : wait4dataLoop ic env maxFd n w' = .ok (w'', rounds)) :
    wait4dataLoop ic env maxFd (n + 1) w = .ok (w'', round :: rounds) := by
  rw [wait4dataLoop, if_pos hc, hround, Eval.ok_bind]
  simp only [hloop, Eval.ok_bind]
  rfl

lemma wait4dataLoop_of_not_continues {maxFd : ℕ} {w : Waiting} (n : ℕ) (hc : ¬ w.Continues) :
    wait4dataLoop ic env maxFd n w = .ok (w, []) := by
  cases n with
  | zero => rfl
  | succ n => rw [wait4dataLoop, if_neg hc]

/-- A socket that is reported is answered with 1. -/
lemma wait4dataAnswer_socket (userFds : Option (List Descriptor)) {w : Waiting} (hres : 0 < w.res)
    (hfd : w.node.fd ∈ w.fds) :
    wait4dataAnswer userFds w = .ok (1, userFds.map (·.map fun fd => (fd.val : ℤ))) := by
  unfold wait4dataAnswer
  rw [if_neg (not_le.mpr hres), if_pos hfd]

end Rounds

/-- **When all descriptors are watched.**  For every node whose queue is accounted for, every
`select` that does as POSIX says, every timeout and every list of user descriptors: all rounds watch
all descriptors, and a socket that becomes readable in time is reported, if and only if one round
decides. -/
theorem wait4data_watches_iff (ic : IntCoding) {env : Surroundings}
    {readable : Descriptor → ℤ → Prop} (hposix : Posix env readable) {s : LocalNode}
    (hinv : s.nm.OutqueueInv) (hnext : s.shaper.nextSendingEvent.Normalised) (now : ℤ)
    {tout : Timeval} (htout : 0 ≤ tout.toUsec) (userFds : Option (List Descriptor)) :
    WatchesAll ic env readable s now tout userFds
      ↔ OneRound env readable s now tout (userFds.getD []) := by
  obtain ⟨nm, hround, hinv', -⟩ := wait4dataRound_eq ic env (wait4dataFds s (userFds.getD [])).2
    (w := wait4dataInit s now tout (userFds.getD [])) hinv
  have hinit : (wait4dataInit s now tout (userFds.getD [])).Continues := ⟨rfl, rfl⟩
  constructor
  · intro h
    by_contra hone
    obtain ⟨hc, hempty⟩ := next_of_not_oneRound hone hnext hposix nm rfl
    obtain ⟨nm', hround', -⟩ := wait4dataRound_eq ic env (wait4dataFds s (userFds.getD [])).2
      (w := Waiting.next env (wait4dataInit s now tout (userFds.getD []))
        (wait4dataFds s (userFds.getD [])).2 nm) hinv'
    -- the second round is handed what the first has left
    have hloop := wait4dataLoop_of_continues hinit hround
      (wait4dataLoop_of_continues (n := 0) hc hround' rfl)
    have hwatched := (h.watched 2 _ _ hloop _ (List.mem_cons_of_mem _ List.mem_cons_self)).1
    rw [hempty] at hwatched
    exact absurd hwatched (Finset.notMem_empty _)
  · intro hone
    obtain ⟨hc, hseen⟩ := hone.next hnext hposix htout nm rfl
    have hloop : ∀ n, wait4dataLoop ic env (wait4dataFds s (userFds.getD [])).2 (n + 1)
        (wait4dataInit s now tout (userFds.getD [])) = _ := fun n =>
      wait4dataLoop_of_continues hinit hround (wait4dataLoop_of_not_continues n hc)
    refine ⟨fun n w rounds hn round hmem => ?_, fun t hr ht huser => ?_⟩
    · cases n with
      | zero =>
          cases hn
          exact absurd hmem List.not_mem_nil
      | succ n =>
          rw [hloop n] at hn
          cases hn
          obtain rfl := List.mem_singleton.mp hmem
          exact ⟨(mem_wait4dataFds s _ _).1.mpr (Or.inl rfl),
            fun fd hfd => (mem_wait4dataFds s _ fd).1.mpr (Or.inr hfd)⟩
    · obtain ⟨hpos, ⟨fd, hfd⟩, t', ht'⟩ := hseen ⟨s.fd, Or.inl rfl, hposix.stays _ _ _ hr ht.le⟩
      have hsocket : readable s.fd t' := by
        obtain ⟨rfl | hmem, hrfd⟩ := (ht' fd).mp hfd
        · exact hrfd
        · exact huser fd hmem t' hrfd
      have hanswer : wait4dataAnswer userFds (Waiting.next env (wait4dataInit s now tout
          (userFds.getD [])) (wait4dataFds s (userFds.getD [])).2 nm)
          = .ok (1, userFds.map (·.map fun fd => (fd.val : ℤ))) :=
        wait4dataAnswer_socket userFds hpos ((ht' s.fd).mpr ⟨Or.inl rfl, hsocket⟩)
      refine ⟨1, userFds.map (·.map fun fd => (fd.val : ℤ)), ?_⟩
      rw [wait4data]
      simp only [hloop 0, Eval.ok_bind, if_neg hc, hanswer]
      rfl

/-! ## An idle node -/

/-- Surroundings in which `fd` becomes readable at the time `t`, and nothing else ever does. -/
def onlyReady (fd : Descriptor) (t : ℤ) : Surroundings where
  pause _ := (0, 0)
  select _ now nfds readfds timeout :=
    if fd ∈ readfds ∧ fd.val < nfds ∧ t ≤ now + timeout.toUsec then ⟨1, {fd}, max now t⟩
    else ⟨0, ∅, now + timeout.toUsec⟩

lemma onlyReady_posix (fd : Descriptor) (t : ℤ) :
    Posix (onlyReady fd t) fun fd' t' => fd' = fd ∧ t ≤ t' where
  stays fd' t₁ t₂ := by
    rintro ⟨rfl, hr⟩ hle
    exact ⟨rfl, hr.trans hle⟩
  ready k now nfds fds timeout htimeout := by
    rintro ⟨fd', hmem, hlt, rfl, hr⟩
    simp only [onlyReady, if_pos (show fd' ∈ fds ∧ fd'.val < nfds ∧ t ≤ now + timeout.toUsec from
      ⟨hmem, hlt, hr⟩)]
    refine ⟨Int.one_pos, Finset.singleton_nonempty fd', fun fd'' => ?_⟩
    rw [Finset.mem_singleton]
    constructor
    · rintro rfl
      exact ⟨hmem, hlt, rfl, le_max_right _ _⟩
    · rintro ⟨-, -, heq, -⟩
      exact heq
  timedOut k now nfds fds timeout htimeout hnone := by
    have hno : ¬ (fd ∈ fds ∧ fd.val < nfds ∧ t ≤ now + timeout.toUsec) :=
      fun ⟨hmem, hlt, hr⟩ => hnone fd hmem hlt ⟨rfl, hr⟩
    simp [onlyReady, hno]

/-- A node with nothing to send. -/
def idleNode : LocalNode where
  fd := ⟨4, by decide⟩
  nm := networkManagerCreate ⟨none, none⟩
  shaper := networkShaperCreate none none (.gettimeofday 0) (.gettimeofday 0)
  sendingBufferLen := 1300

/-- Half a millisecond is over in one round. -/
theorem wait4data_watches_iff_short :
    WatchesAll bigEndian (onlyReady ⟨4, by decide⟩ 400) (fun fd t => fd = ⟨4, by decide⟩ ∧ 400 ≤ t)
        idleNode 0 ⟨0, 500⟩ none
      ↔ OneRound (onlyReady ⟨4, by decide⟩ 400) (fun fd t => fd = ⟨4, by decide⟩ ∧ 400 ≤ t)
        idleNode 0 ⟨0, 500⟩ [] :=
  wait4data_watches_iff bigEndian (onlyReady_posix _ _) (s := idleNode)
    (networkManagerCreate_outqueueInv _) (Timeval.gettimeofday_normalised 0) 0 (by decide) none

/-- With ten milliseconds, the second round of an idle node watches nothing. -/
theorem not_wait4data_watches :
    ¬ ∀ (ic : IntCoding) (env : Surroundings) (readable : Descriptor → ℤ → Prop) (s : LocalNode)
      (now : ℤ) (tout : Timeval) (userFds : Option (List Descriptor)), Posix env readable →
      s.nm.OutqueueInv → s.shaper.nextSendingEvent.Normalised → 0 ≤ tout.toUsec →
      WatchesAll ic env readable s now tout userFds := by
  intro h
  have hall := h bigEndian (onlyReady ⟨4, by decide⟩ 5000) _ idleNode 0 ⟨0, 10000⟩ none
    (onlyReady_posix _ _) (networkManagerCreate_outqueueInv _) (Timeval.gettimeofday_normalised 0)
    (by decide)
  have hempty := hall.watched 2 _ _ rfl ⟨∅, none⟩ (List.mem_cons_of_mem _ List.mem_cons_self)
  exact absurd hempty.1 (Finset.notMem_empty _)

end PeerStreamer
