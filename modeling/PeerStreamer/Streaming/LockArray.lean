import PeerStreamer.Foundation.Eval
import PeerStreamer.Streaming.ChunkLock

/-!
# The lock table in memory

The functions of `chunklock.c` on the array they work on: a lock is removed by moving those behind
it down, the cleanup does so while it goes through the array from its end, and a full array is
reallocated.  Each access is checked against the allocation, and none fails: on an array that holds
a lock table every function succeeds, and does to the array what is done to the table
(`LockArray.Holds`).
-/

namespace PeerStreamer

/-- `struct chunk_locks` as it lies in memory: `lsize` cells, of which the first `lcount` are in
use.  A cell that has never been written holds `none`. -/
structure LockArray (ID : Type) where
  locks : List (Option (Lock ID))
  lcount : ℕ
  toutdiff : ℤ

variable {ID : Type}

namespace LockArray

/-- `lsize` -/
def lsize (a : LockArray ID) : ℕ := a.locks.length

/-- `locks_init`, in `chunk_locks_create`. -/
def chunkLocksCreate (lockTimeoutMs : ℕ) : LockArray ID where
  locks := List.replicate LSIZE_INCREMENT none
  lcount := 0
  toutdiff := (lockTimeoutMs / 1000 : ℕ) * 1000000 + (lockTimeoutMs % 1000 : ℕ) * 1000

/-- `locks[i]` -/
def get (a : LockArray ID) (i : ℕ) : Eval (Lock ID) :=
  match a.locks[i]? with
  | none => .error .outOfBounds
  | some none => .error .uninitialised
  | some (some l) => .ok l

/-- `chunk_lock_timed_out`, with the reading `n` of the clock. -/
def chunkLockTimedOut (clk : Clock) (a : LockArray ID) (l : Lock ID) (n : ℕ) : Bool :=
  l.timestamp + a.toutdiff < clk.reading n

/-- `chunk_lock_remove` of the lock `i`: the `memmove` of the locks behind it. -/
def chunkLockRemove (a : LockArray ID) (i : ℕ) : Eval (LockArray ID) :=
  let count := a.lcount - i - 1
  if i + 1 + count ≤ a.lsize then
    .ok { a with
      locks := a.locks.take i ++ (a.locks.drop (i + 1)).take count ++ a.locks.drop (i + count)
      lcount := a.lcount - 1 }
  else .error .outOfBounds

/-- The loop of `chunk_locks_cleanup`, with the locks below `k` still to look at. -/
def chunkLocksCleanupLoop (clk : Clock) : (k : ℕ) → LockArray ID → ℕ → Eval (LockArray ID × ℕ)
  | 0, a, n => .ok (a, n)
  | i + 1, a, n => do
      let l ← a.get i
      let a ← if a.chunkLockTimedOut clk l n then a.chunkLockRemove i else .ok a
      chunkLocksCleanupLoop clk i a (n + 1)

/-- `chunk_locks_cleanup` -/
def chunkLocksCleanup (clk : Clock) (a : LockArray ID) (n : ℕ) : Eval (LockArray ID × ℕ) :=
  chunkLocksCleanupLoop clk a.lcount a n

/-- `chunk_lock` -/
def chunkLock (clk : Clock) (a : LockArray ID) (chunkid : ℤ) (peer : ID) (n : ℕ) :
    Eval (LockArray ID × ℕ) :=
  if a.lcount < a.lsize then
    let locks := a.locks.set a.lcount (some ⟨chunkid, peer, clk.reading n⟩)
    let lcount := a.lcount + 1
    .ok ({ a with
      locks := if lcount = a.lsize then locks ++ List.replicate LSIZE_INCREMENT none else locks
      lcount }, n + 1)
  else .error .outOfBounds

/-- The loop of `chunk_unlock`, with `k` locks from `i` on still to look at. -/
def chunkUnlockLoop (a : LockArray ID) (chunkid : ℤ) : (k i : ℕ) → Eval (LockArray ID)
  | 0, _ => .ok a
  | k + 1, i => do
      let l ← a.get i
      if l.chunkid = chunkid then a.chunkLockRemove i
      else a.chunkUnlockLoop chunkid k (i + 1)

/-- `chunk_unlock` -/
def chunkUnlock (a : LockArray ID) (chunkid : ℤ) : Eval (LockArray ID) :=
  a.chunkUnlockLoop chunkid a.lcount 0

/-- The loop of `chunk_islocked`. -/
def chunkIslockedLoop (a : LockArray ID) (chunkid : ℤ) : (k i : ℕ) → Eval Bool
  | 0, _ => .ok false
  | k + 1, i => do
      let l ← a.get i
      if l.chunkid = chunkid then .ok true else a.chunkIslockedLoop chunkid k (i + 1)

/-- `chunk_islocked` -/
def chunkIslocked (clk : Clock) (a : LockArray ID) (chunkid : ℤ) (n : ℕ) :
    Eval (Bool × LockArray ID × ℕ) := do
  let (a, n) ← a.chunkLocksCleanup clk n
  let answer ← a.chunkIslockedLoop chunkid a.lcount 0
  return (answer, a, n)

/-! ## The array holds the table -/

/-- The cells in use hold the locks `l`. -/
def Used (a : LockArray ID) (l : List (Lock ID)) : Prop :=
  a.lcount = l.length ∧ ∃ rest, a.locks = l.map some ++ rest

section Cells

variable {a : LockArray ID} {pre post : List (Lock ID)} {x : Lock ID}

lemma Used.get (h : a.Used (pre ++ x :: post)) : a.get pre.length = .ok x := by
  obtain ⟨-, rest, hlocks⟩ := h
  have hcell : a.locks[pre.length]? = some (some x) := by
    rw [hlocks, List.map_append, List.map_cons, List.append_assoc,
      List.getElem?_append_right (by simp)]
    simp
  rw [LockArray.get, hcell]

/-- **Moving down** the locks behind one takes it out. -/
lemma Used.chunkLockRemove (h : a.Used (pre ++ x :: post)) :
    ∃ a', a.chunkLockRemove pre.length = .ok a' ∧ a'.Used (pre ++ post) ∧ a'.lsize = a.lsize
      ∧ a'.toutdiff = a.toutdiff := by
  obtain ⟨hcount, rest, hlocks⟩ := h
  have hlen : a.lcount = pre.length + (post.length + 1) := by
    rw [hcount, List.length_append, List.length_cons]
  have hmoved : a.lcount - pre.length - 1 = post.length := by omega
  have hcells : a.locks = pre.map some ++ (some x :: (post.map some ++ rest)) := by
    rw [hlocks, List.map_append, List.map_cons, List.append_assoc, List.cons_append]
  have hsize : a.lsize = pre.length + (1 + (post.length + rest.length)) := by
    rw [lsize, hcells]
    simp only [List.length_append, List.length_cons, List.length_map]
    omega
  rw [LockArray.chunkLockRemove, hmoved, if_pos (by omega)]
  have htake : a.locks.take pre.length = pre.map some := by
    rw [hcells, List.take_left' (by simp)]
  have hdrop : (a.locks.drop (pre.length + 1)).take post.length = post.map some := by
    rw [hcells, ← List.drop_drop, List.drop_left' (by simp), List.drop_succ_cons, List.drop_zero,
      List.take_left' (by simp)]
  refine ⟨_, rfl, ⟨?_, a.locks.drop (pre.length + post.length), ?_⟩, ?_, rfl⟩
  · rw [List.length_append]
    change a.lcount - 1 = _
    omega
  · rw [htake, hdrop, List.map_append]
  · rw [lsize, htake, hdrop, List.length_append, List.length_append, List.length_map,
      List.length_map, List.length_drop, ← lsize]
    omega

/-- The cleanup: the locks `post` have been looked at, and kept. -/
lemma Used.chunkLocksCleanupLoop (clk : Clock) (pre : List (Lock ID)) (n : ℕ)
    (h : a.Used (pre ++ post)) :
    ∃ a', LockArray.chunkLocksCleanupLoop clk pre.length a n
        = .ok (a', (Lease.sweep clk Lock.timestamp a.toutdiff pre n).2)
      ∧ a'.Used ((Lease.sweep clk Lock.timestamp a.toutdiff pre n).1 ++ post)
      ∧ a'.lsize = a.lsize ∧ a'.toutdiff = a.toutdiff := by
  induction pre using List.reverseRecOn generalizing a post n with
  | nil => exact ⟨a, rfl, h, rfl, rfl⟩
  | append_singleton pre x ih =>
      rw [List.append_assoc] at h
      rw [List.length_append, List.length_singleton, LockArray.chunkLocksCleanupLoop, h.get,
        Lease.sweep_concat, Eval.ok_bind]
      by_cases hout : x.timestamp + a.toutdiff < clk.reading n
      · obtain ⟨a', hremove, hused, hsize, htout⟩ := h.chunkLockRemove
        obtain ⟨a'', hloop, hused', hsize', htout'⟩ := ih (n + 1) hused
        rw [if_pos (by rwa [chunkLockTimedOut, decide_eq_true_eq]), hremove, Eval.ok_bind,
          if_pos hout, List.append_nil]
        rw [htout] at hloop hused'
        exact ⟨a'', hloop, hused', hsize'.trans hsize, htout'.trans htout⟩
      · obtain ⟨a', hloop, hused, hsize, htout⟩ := ih (n + 1) h
        rw [if_neg (by rwa [chunkLockTimedOut, decide_eq_true_eq]), Eval.ok_bind, if_neg hout,
          List.append_assoc]
        exact ⟨a', hloop, hused, hsize, htout⟩

/-- The scan for a lock to remove: the locks `pre` are on other chunks. -/
lemma Used.chunkUnlockLoop (chunkid : ℤ) (pre post : List (Lock ID)) (h : a.Used (pre ++ post)) :
    ∃ a', a.chunkUnlockLoop chunkid post.length pre.length = .ok a'
      ∧ a'.Used (pre ++ post.eraseP (·.chunkid = chunkid)) ∧ a'.lsize = a.lsize
      ∧ a'.toutdiff = a.toutdiff := by
  induction post generalizing pre with
  | nil => exact ⟨a, rfl, h, rfl, rfl⟩
  | cons x post ih =>
      rw [List.length_cons, LockArray.chunkUnlockLoop, h.get, Eval.ok_bind]
      by_cases hx : x.chunkid = chunkid
      · rw [if_pos hx, List.eraseP_cons_of_pos (by simpa using hx)]
        exact h.chunkLockRemove
      · have hnext := ih (pre ++ [x]) (by rwa [List.append_assoc])
        rw [List.length_append, List.length_singleton, List.append_assoc] at hnext
        rw [if_neg hx, List.eraseP_cons_of_neg (by simpa using hx)]
        exact hnext

lemma Used.chunkIslockedLoop (chunkid : ℤ) (pre post : List (Lock ID)) (h : a.Used (pre ++ post)) :
    a.chunkIslockedLoop chunkid post.length pre.length
      = .ok (post.any (·.chunkid = chunkid)) := by
  induction post generalizing pre with
  | nil => rfl
  | cons x post ih =>
      rw [List.length_cons, LockArray.chunkIslockedLoop, h.get, Eval.ok_bind, List.any_cons]
      by_cases hx : x.chunkid = chunkid
      · rw [if_pos hx, decide_eq_true hx, Bool.true_or]
      · have hnext := ih (pre ++ [x]) (by rwa [List.append_assoc])
        rw [List.length_append, List.length_singleton] at hnext
        rw [if_neg hx, decide_eq_false hx, Bool.false_or]
        exact hnext

end Cells

/-- The array holds the table: the same locks in its first cells, and the same number of cells. -/
structure Holds (a : LockArray ID) (cl : ChunkLocks ID) : Prop where
  used : a.Used cl.locks
  size : a.lsize = cl.lsize
  tout : a.toutdiff = cl.toutdiff

section Functions

variable {a : LockArray ID} {cl : ChunkLocks ID}

/-- There is always room for one more. -/
lemma Holds.lcount_lt (h : a.Holds cl) : a.lcount < a.lsize := by
  rw [h.used.1, h.size]
  exact cl.room

lemma chunkLocksCreate_holds (lockTimeoutMs : ℕ) :
    (chunkLocksCreate lockTimeoutMs : LockArray ID).Holds
      (PeerStreamer.chunkLocksCreate lockTimeoutMs) :=
  ⟨⟨rfl, _, rfl⟩, rfl, rfl⟩

/-- `chunk_lock` never writes behind the array. -/
lemma Holds.chunkLock (h : a.Holds cl) (clk : Clock) (chunkid : ℤ) (peer : ID) (n : ℕ) :
    ∃ a', a.chunkLock clk chunkid peer n = .ok (a', n + 1)
      ∧ a'.Holds (cl.chunkLock clk chunkid peer n).1 := by
  obtain ⟨hcount, rest, hlocks⟩ := h.used
  have hroom := h.lcount_lt
  have hsize : a.lsize = cl.locks.length + rest.length := by
    rw [lsize, hlocks, List.length_append, List.length_map]
  rw [LockArray.chunkLock, if_pos hroom]
  cases rest with
  | nil =>
      rw [List.length_nil] at hsize
      omega
  | cons cell rest =>
      have hset : a.locks.set a.lcount (some ⟨chunkid, peer, clk.reading n⟩)
          = (cl.locks ++ [(⟨chunkid, peer, clk.reading n⟩ : Lock ID)]).map some ++ rest := by
        rw [hlocks, hcount, List.map_append, List.append_assoc,
          List.set_append_right _ _ (by simp), List.length_map, Nat.sub_self]
        rfl
      refine ⟨_, rfl, ⟨?_, ?_⟩, ?_, h.tout⟩
      · change a.lcount + 1 = (cl.locks ++ [_]).length
        rw [hcount, List.length_append, List.length_singleton]
      · by_cases hgrow : a.lcount + 1 = a.lsize
        · exact ⟨rest ++ List.replicate LSIZE_INCREMENT none, by
            rw [if_pos hgrow, hset, List.append_assoc]; rfl⟩
        · exact ⟨rest, by rw [if_neg hgrow, hset]; rfl⟩
      · rw [lsize, apply_ite List.length, List.length_append, List.length_set,
          List.length_replicate]
        change (if a.lcount + 1 = a.lsize then a.lsize + LSIZE_INCREMENT else a.lsize)
          = if cl.locks.length + 1 = cl.lsize then cl.lsize + LSIZE_INCREMENT else cl.lsize
        rw [hcount, h.size]

lemma Holds.chunkUnlock (h : a.Holds cl) (chunkid : ℤ) :
    ∃ a', a.chunkUnlock chunkid = .ok a' ∧ a'.Holds (cl.chunkUnlock chunkid) := by
  obtain ⟨a', hloop, hused, hsize, htout⟩ :=
    Used.chunkUnlockLoop chunkid [] cl.locks h.used
  rw [LockArray.chunkUnlock, h.used.1]
  exact ⟨a', hloop, hused, hsize.trans h.size, htout.trans h.tout⟩

lemma Holds.chunkIslocked (h : a.Holds cl) (clk : Clock) (chunkid : ℤ) (n : ℕ) :
    ∃ a', a.chunkIslocked clk chunkid n = .ok ((cl.chunkIslocked clk chunkid n).1, a',
        (cl.chunkIslocked clk chunkid n).2.2)
      ∧ a'.Holds (cl.chunkIslocked clk chunkid n).2.1 := by
  have hstart : a.Used (cl.locks ++ []) := by
    rw [List.append_nil]
    exact h.used
  obtain ⟨a', hloop, hused, hsize, htout⟩ :=
    Used.chunkLocksCleanupLoop clk cl.locks n hstart
  rw [List.append_nil, h.tout] at hused
  rw [h.tout] at hloop
  have hscan := Used.chunkIslockedLoop chunkid [] _ hused
  refine ⟨a', ?_, hused, hsize.trans h.size, htout.trans h.tout⟩
  rw [LockArray.chunkIslocked, chunkLocksCleanup, h.used.1, hloop, Eval.ok_bind]
  dsimp only
  rw [hused.1, ← List.length_nil (α := Lock ID), hscan]
  rfl

end Functions

end LockArray

end PeerStreamer
