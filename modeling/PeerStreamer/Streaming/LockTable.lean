import PeerStreamer.Foundation.ListFacts
import PeerStreamer.Foundation.Run
import PeerStreamer.Streaming.LockArray

/-!
# Runs of the lock table

Over any run in which a chunk is only locked right after it was found not to be, the table is a map
with expiry: a chunk is found to be locked exactly when it has been locked, not unlocked since, and
not longer ago than the timeout (`lock_table_exact`).
-/

namespace PeerStreamer

/-! ## The calls -/

inductive LockOp (ID : Type)
  | islocked (chunkid : ℤ)
  | lock (chunkid : ℤ) (peer : ID)
  | unlock (chunkid : ℤ)

/-- What a call has done: a lock is taken at the time the clock shows. -/
inductive LockEvent
  | asked (chunkid : ℤ) (answer : Bool)
  | locked (chunkid time : ℤ)
  | unlocked (chunkid : ℤ)
  deriving DecidableEq

/-- The chunk a call was about. -/
def LockEvent.chunkid : LockEvent → ℤ
  | .asked chunkid _ => chunkid
  | .locked chunkid _ => chunkid
  | .unlocked chunkid => chunkid

/-- The table, the number of the next reading of the clock, and the chunk that the last call has
found not to be locked. -/
structure LockRun (ID : Type) where
  array : LockArray ID
  reading : ℕ
  free : Option ℤ

variable {ID : Type}

/-- One call. -/
def lockStep (clk : Clock) (s : LockRun ID) : LockOp ID → Eval (LockRun ID × LockEvent)
  | .islocked chunkid => do
      let (answer, array, n) ← s.array.chunkIslocked clk chunkid s.reading
      return (⟨array, n, if answer then none else some chunkid⟩, .asked chunkid answer)
  | .lock chunkid peer => do
      let (array, n) ← s.array.chunkLock clk chunkid peer s.reading
      return (⟨array, n, none⟩, .locked chunkid (clk.reading s.reading))
  | .unlock chunkid => do
      let array ← s.array.chunkUnlock chunkid
      return (⟨array, s.reading, none⟩, .unlocked chunkid)

/-- A chunk is only locked right after it was found not to be. -/
def LockOp.Allowed (s : LockRun ID) : LockOp ID → Prop
  | .lock chunkid _ => s.free = some chunkid
  | _ => True

instance LockOp.Allowed.decidable (s : LockRun ID) : (op : LockOp ID) → Decidable (op.Allowed s)
  | .lock chunkid _ => inferInstanceAs (Decidable (s.free = some chunkid))
  | .islocked _ => isTrue trivial
  | .unlock _ => isTrue trivial

/-! ## The map -/

/-- The chunk has been locked at the time `t`, and not unlocked since. -/
def LockedSince (events : List LockEvent) (chunkid t : ℤ) : Prop :=
  ∃ pre post, events = pre ++ .locked chunkid t :: post ∧ .unlocked chunkid ∉ post

/-- One more event. -/
lemma lockedSince_concat {events : List LockEvent} {e : LockEvent} {chunkid t : ℤ} :
    LockedSince (events ++ [e]) chunkid t
      ↔ e = .locked chunkid t ∨ e ≠ .unlocked chunkid ∧ LockedSince events chunkid t := by
  constructor
  · rintro ⟨pre, post, hsplit, hnot⟩
    rcases List.eq_nil_or_concat post with rfl | ⟨post, e', rfl⟩
    · exact Or.inl (List.append_inj' hsplit rfl |>.2 |> List.singleton_inj.mp)
    · rw [List.concat_eq_append, ← List.cons_append, ← List.append_assoc] at hsplit
      obtain ⟨hevents, he⟩ := List.append_inj' hsplit rfl
      rw [List.concat_eq_append, List.mem_append, not_or, List.mem_singleton] at hnot
      obtain rfl := List.singleton_inj.mp he
      exact Or.inr ⟨Ne.symm hnot.2, pre, post, hevents, hnot.1⟩
  · rintro (rfl | ⟨hne, pre, post, rfl, hnot⟩)
    · exact ⟨events, [], rfl, List.not_mem_nil⟩
    · refine ⟨pre, post ++ [e], by simp, ?_⟩
      rw [List.mem_append, List.mem_singleton, not_or]
      exact ⟨hnot, Ne.symm hne⟩

/-- Whether a chunk is locked depends on the calls for this chunk alone. -/
lemma lockedSince_filter (events : List LockEvent) (chunkid t : ℤ) :
    LockedSince (events.filter (·.chunkid = chunkid)) chunkid t
      ↔ LockedSince events chunkid t := by
  induction events using List.reverseRecOn with
  | nil => rfl
  | append_singleton events e ih =>
      rw [List.filter_append, lockedSince_concat]
      by_cases he : e.chunkid = chunkid
      · rw [List.filter_cons_of_pos (by simpa using he), List.filter_nil, lockedSince_concat, ih]
      · have hlocked : e ≠ .locked chunkid t := by
          rintro rfl
          exact he rfl
        have hunlocked : e ≠ .unlocked chunkid := by
          rintro rfl
          exact he rfl
        rw [List.filter_cons_of_neg (by simpa using he), List.filter_nil, List.append_nil, ih]
        simp only [hlocked, hunlocked, false_or, ne_eq, not_false_eq_true, true_and]

/-! ## The invariant -/

/-- The table after some calls: it holds one lock for each chunk at most, each of them has been
taken and not given up, and each that has been taken and not given up is in the table or has timed
out by a reading made before. -/
structure TableInv (clk : Clock) (T : ℤ) (events : List LockEvent) (s : LockRun ID)
    (cl : ChunkLocks ID) : Prop where
  holds : s.array.Holds cl
  tout : cl.toutdiff = T
  single : (cl.locks.map Lock.chunkid).Nodup
  taken : ∀ l ∈ cl.locks, LockedSince events l.chunkid l.timestamp
  settled : ∀ chunkid t, LockedSince events chunkid t →
    (∃ l ∈ cl.locks, l.chunkid = chunkid ∧ l.timestamp = t)
      ∨ ∃ m < s.reading, t + T < clk.reading m
  free : ∀ chunkid, s.free = some chunkid → ∀ l ∈ cl.locks, l.chunkid ≠ chunkid

/-- The table that is just created. -/
def lockTableStart (lockTimeoutMs : ℕ) : LockRun ID :=
  ⟨LockArray.chunkLocksCreate lockTimeoutMs, 0, none⟩

lemma lockTableStart_inv (clk : Clock) (lockTimeoutMs : ℕ) :
    TableInv clk (lockTimeoutMs * 1000) [] (lockTableStart lockTimeoutMs : LockRun ID)
      (chunkLocksCreate lockTimeoutMs) where
  holds := LockArray.chunkLocksCreate_holds lockTimeoutMs
  tout := chunkLocksCreate_toutdiff lockTimeoutMs
  single := List.nodup_nil
  taken _ hl := absurd hl List.not_mem_nil
  settled chunkid t := by
    rintro ⟨pre, post, hsplit, -⟩
    simp at hsplit
  free _ hfree := by cases hfree

section Steps

variable {clk : Clock} {T : ℤ} {events : List LockEvent} {s : LockRun ID} {cl : ChunkLocks ID}

/-- **Looking a chunk up.** -/
lemma TableInv.islocked (h : TableInv clk T events s cl) (chunkid : ℤ) :
    ∃ array, lockStep clk s (.islocked chunkid)
        = .ok (⟨array, (cl.chunkIslocked clk chunkid s.reading).2.2,
            if (cl.chunkIslocked clk chunkid s.reading).1 then none else some chunkid⟩,
          .asked chunkid (cl.chunkIslocked clk chunkid s.reading).1)
      ∧ TableInv clk T (events ++ [.asked chunkid (cl.chunkIslocked clk chunkid s.reading).1])
          ⟨array, (cl.chunkIslocked clk chunkid s.reading).2.2,
            if (cl.chunkIslocked clk chunkid s.reading).1 then none else some chunkid⟩
          (cl.chunkIslocked clk chunkid s.reading).2.1 := by
  obtain ⟨array, hcall, hholds⟩ := h.holds.chunkIslocked clk chunkid s.reading
  have hsub : (Lease.sweep clk Lock.timestamp cl.toutdiff cl.locks s.reading).1.Sublist cl.locks :=
    Lease.sweep_sublist
  have hsplit : ∀ l ∈ cl.locks,
      l ∈ (Lease.sweep clk Lock.timestamp cl.toutdiff cl.locks s.reading).1
        ∨ ∃ m < (Lease.sweep clk Lock.timestamp cl.toutdiff cl.locks s.reading).2,
          l.timestamp + cl.toutdiff < clk.reading m := fun l hl => Lease.mem_sweep_or_lapsed hl
  have hevents : ∀ c t b, LockedSince (events ++ [.asked chunkid b]) c t
      ↔ LockedSince events c t := fun c t b => by simp [lockedSince_concat]
  refine ⟨array, ?_, hholds, h.tout, h.single.sublist (hsub.map _), fun l hl => ?_,
    fun c t hlocked => ?_, fun c hfree l hl => ?_⟩
  · rw [lockStep, hcall]
    rfl
  · exact (hevents _ _ _).mpr (h.taken l (hsub.subset hl))
  · rcases h.settled c t ((hevents _ _ _).mp hlocked) with ⟨l, hl, hc, ht⟩ | ⟨m, hm, hlapsed⟩
    · rcases hsplit l hl with hleft | ⟨m, hm, hlapsed⟩
      · exact Or.inl ⟨l, hleft, hc, ht⟩
      · exact Or.inr ⟨m, hm, by rwa [ht, h.tout] at hlapsed⟩
    · exact Or.inr ⟨m, hm.trans_le Lease.le_sweep_snd, hlapsed⟩
  · cases hanswer : (cl.chunkIslocked clk chunkid s.reading).1 with
    | true =>
        rw [hanswer] at hfree
        cases hfree
    | false =>
        rw [hanswer] at hfree
        cases hfree
        rw [ChunkLocks.chunkIslocked, List.any_eq_false] at hanswer
        simpa using hanswer l hl

/-- **Locking** a chunk that was found not to be. -/
lemma TableInv.lock (h : TableInv clk T events s cl) {chunkid : ℤ}
    (hfree : s.free = some chunkid) (peer : ID) :
    ∃ array, lockStep clk s (.lock chunkid peer)
        = .ok (⟨array, s.reading + 1, none⟩, .locked chunkid (clk.reading s.reading))
      ∧ TableInv clk T (events ++ [.locked chunkid (clk.reading s.reading)])
          ⟨array, s.reading + 1, none⟩ (cl.chunkLock clk chunkid peer s.reading).1 := by
  obtain ⟨array, hcall, hholds⟩ := h.holds.chunkLock clk chunkid peer s.reading
  refine ⟨array, ?_, hholds, h.tout, ?_, fun l hl => ?_, fun c t hlocked => ?_,
    fun c hnone => by cases hnone⟩
  · rw [lockStep, hcall]
    rfl
  · change ((cl.locks ++ [_]).map Lock.chunkid).Nodup
    rw [List.map_append, List.nodup_append]
    refine ⟨h.single, List.nodup_singleton _, ?_⟩
    rintro _ hc c' hc' rfl
    obtain ⟨l, hl, rfl⟩ := List.mem_map.mp hc
    exact h.free chunkid hfree l hl (List.mem_singleton.mp hc')
  · rw [lockedSince_concat]
    rcases List.mem_append.mp hl with hl | hl
    · exact Or.inr ⟨by simp, h.taken l hl⟩
    · obtain rfl := List.mem_singleton.mp hl
      exact Or.inl rfl
  · rcases lockedSince_concat.mp hlocked with he | ⟨-, hlocked⟩
    · cases he
      exact Or.inl ⟨_, List.mem_append_right _ (List.mem_singleton_self _), rfl, rfl⟩
    · refine (h.settled c t hlocked).imp ?_ ?_
      · rintro ⟨l, hl, hc⟩
        exact ⟨l, List.mem_append_left _ hl, hc⟩
      · rintro ⟨m, hm, hlapsed⟩
        exact ⟨m, Nat.lt_succ_of_lt hm, hlapsed⟩

/-- **Unlocking** a chunk. -/
lemma TableInv.unlock (h : TableInv clk T events s cl) (chunkid : ℤ) :
    ∃ array, lockStep clk s (.unlock chunkid)
        = .ok (⟨array, s.reading, none⟩, .unlocked chunkid)
      ∧ TableInv clk T (events ++ [.unlocked chunkid]) ⟨array, s.reading, none⟩
          (cl.chunkUnlock chunkid) := by
  obtain ⟨array, hcall, hholds⟩ := h.holds.chunkUnlock chunkid
  refine ⟨array, ?_, hholds, h.tout, h.single.sublist (List.eraseP_sublist.map _), fun l hl => ?_,
    fun c t hlocked => ?_, fun c hnone => by cases hnone⟩
  · rw [lockStep, hcall]
    rfl
  · have hne : l.chunkid ≠ chunkid := key_ne_of_mem_eraseP h.single hl
    exact lockedSince_concat.mpr
      (Or.inr ⟨by simpa using Ne.symm hne, h.taken l (List.mem_of_mem_eraseP hl)⟩)
  · rcases lockedSince_concat.mp hlocked with he | ⟨hne, hlocked⟩
    · cases he
    · refine (h.settled c t hlocked).imp_left ?_
      rintro ⟨l, hl, rfl, ht⟩
      have hother : ¬l.chunkid = chunkid := by
        rintro rfl
        exact hne rfl
      exact ⟨l, (List.mem_eraseP_of_neg (by simpa using hother)).mpr hl, rfl, ht⟩

end Steps

/-! ## Runs -/

/-- The answer is that of the map.  A chunk that is found to be locked had not timed out at a
reading made for this call, and one that is not found to be had timed out at a reading made until
then; so that in a call at one moment the answer tells whether the chunk has timed out then. -/
structure LookupExact (clk : Clock) (T : ℤ) (events : List LockEvent) (s s' : LockRun ID)
    (chunkid : ℤ) (answer : Bool) : Prop where
  locked : answer = true → ∃ t, LockedSince events chunkid t
    ∧ ∃ m, s.reading ≤ m ∧ m < s'.reading ∧ clk.reading m ≤ t + T
  free : answer = false → ∀ t, LockedSince events chunkid t →
    ∃ m < s'.reading, t + T < clk.reading m
  atTime : ∀ now, (∀ m < s'.reading, clk.reading m ≤ now) →
    (∀ m, s.reading ≤ m → m < s'.reading → now ≤ clk.reading m) →
    (answer = true ↔ ∃ t, LockedSince events chunkid t ∧ now ≤ t + T)

/-- The table is a map with expiry: there is room for one more lock, every lookup answers as the
map, and what it answers depends on the calls for its own chunk alone. -/
structure LockTableExact (clk : Clock) (T : ℤ) (events : List LockEvent) (s : LockRun ID) :
    Prop where
  room : s.array.lcount < s.array.lsize
  lookup : ∀ chunkid, ∃ s' answer,
    lockStep clk s (.islocked chunkid) = .ok (s', .asked chunkid answer)
      ∧ LookupExact clk T events s s' chunkid answer
  own : ∀ chunkid t, LockedSince (events.filter (·.chunkid = chunkid)) chunkid t
    ↔ LockedSince events chunkid t

section Exact

variable {clk : Clock} {T : ℤ} {events : List LockEvent} {s : LockRun ID} {cl : ChunkLocks ID}

lemma TableInv.step (h : TableInv clk T events s cl) (op : LockOp ID) (hop : op.Allowed s) :
    ∃ s' e, lockStep clk s op = .ok (s', e) ∧ ∃ cl', TableInv clk T (events ++ [e]) s' cl' := by
  cases op with
  | islocked chunkid =>
      obtain ⟨array, hcall, hinv⟩ := h.islocked chunkid
      exact ⟨_, _, hcall, _, hinv⟩
  | lock chunkid peer =>
      obtain ⟨array, hcall, hinv⟩ := h.lock hop peer
      exact ⟨_, _, hcall, _, hinv⟩
  | unlock chunkid =>
      obtain ⟨array, hcall, hinv⟩ := h.unlock chunkid
      exact ⟨_, _, hcall, _, hinv⟩

lemma TableInv.lookupExact (h : TableInv clk T events s cl) (chunkid : ℤ) :
    ∃ s' answer, lockStep clk s (.islocked chunkid) = .ok (s', .asked chunkid answer)
      ∧ LookupExact clk T events s s' chunkid answer := by
  obtain ⟨array, hcall, hinv⟩ := h.islocked chunkid
  have hlocked : (cl.chunkIslocked clk chunkid s.reading).1 = true →
      ∃ t, LockedSince events chunkid t ∧ ∃ m, s.reading ≤ m
        ∧ m < (cl.chunkIslocked clk chunkid s.reading).2.2 ∧ clk.reading m ≤ t + T := by
    intro hanswer
    rw [ChunkLocks.chunkIslocked, List.any_eq_true] at hanswer
    obtain ⟨l, hl, hc⟩ := hanswer
    obtain rfl : l.chunkid = chunkid := by simpa using hc
    obtain ⟨m, hn, hm, hle⟩ := Lease.exists_reading_of_mem_sweep hl
    rw [h.tout] at hle
    exact ⟨l.timestamp, h.taken l (Lease.sweep_sublist.subset hl), m, hn, hm, hle⟩
  have hfree : (cl.chunkIslocked clk chunkid s.reading).1 = false →
      ∀ t, LockedSince events chunkid t →
        ∃ m < (cl.chunkIslocked clk chunkid s.reading).2.2, t + T < clk.reading m := by
    intro hanswer t ht
    have hafter : LockedSince (events
        ++ [.asked chunkid (cl.chunkIslocked clk chunkid s.reading).1]) chunkid t :=
      lockedSince_concat.mpr (Or.inr ⟨by simp, ht⟩)
    refine (hinv.settled chunkid t hafter).resolve_left ?_
    rintro ⟨l, hl, hc, -⟩
    exact hinv.free chunkid (by rw [hanswer]; rfl) l hl hc
  refine ⟨_, _, hcall, hlocked, hfree, fun now hpast hcurrent => ⟨fun hanswer => ?_, ?_⟩⟩
  · obtain ⟨t, ht, m, hn, hm, hle⟩ := hlocked hanswer
    exact ⟨t, ht, (hcurrent m hn hm).trans hle⟩
  · rintro ⟨t, ht, hnow⟩
    cases hanswer : (cl.chunkIslocked clk chunkid s.reading).1 with
    | true => rfl
    | false =>
        obtain ⟨m, hm, hlapsed⟩ := hfree hanswer t ht
        exact absurd ((hlapsed.trans_le (hpast m hm)).trans_le hnow) (lt_irrefl _)

end Exact

/-- **The lock table is a map with expiry**, in every run in which a chunk is only locked right
after it was found not to be. -/
theorem lock_table_exact (clk : Clock) (lockTimeoutMs : ℕ) (ops : List (LockOp ID))
    (hallowed : Along (lockStep clk) (fun s op => op.Allowed s) (lockTableStart lockTimeoutMs)
      ops) :
    ∃ s events, exec (lockStep clk) (lockTableStart lockTimeoutMs) ops = .ok (s, events)
      ∧ LockTableExact clk (lockTimeoutMs * 1000) events s := by
  obtain ⟨s, events, hexec, cl, hinv⟩ := exec_along_history
    (J := fun events s => ∃ cl, TableInv clk (lockTimeoutMs * 1000) events s cl)
    (fun _ _ op ⟨_, h⟩ hop => h.step op hop) ⟨_, lockTableStart_inv clk lockTimeoutMs⟩ hallowed
  exact ⟨s, events, hexec, hinv.holds.lcount_lt, hinv.lookupExact, lockedSince_filter events⟩

/-- A chunk is locked, found to be, unlocked, and locked once more; another one is locked in
between. -/
def relockingRun : List (LockOp Unit) :=
  [.islocked 3, .lock 3 (), .islocked 4, .lock 4 (), .islocked 3, .unlock 3, .islocked 3,
    .lock 3 ()]

theorem lock_table_exact_relocking :
    ∃ s events, exec (lockStep (Clock.ticking 900)) (lockTableStart 2) relockingRun
        = .ok (s, events)
      ∧ LockTableExact (Clock.ticking 900) ((2 : ℕ) * 1000) events s :=
  lock_table_exact (Clock.ticking 900) 2 relockingRun (by decide)

end PeerStreamer
