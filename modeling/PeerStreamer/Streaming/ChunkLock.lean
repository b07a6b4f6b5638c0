import PeerStreamer.Foundation.Lease

/-!
# The lock table

`chunklock.c`: a chunk that has been accepted from a peer is locked for a while, so that it is not
accepted from another one as well.  The table is an array that grows by ten entries whenever it is
full; that there is always room for one more is part of its type.  Times are in microseconds.
-/

namespace PeerStreamer

/-- `LSIZE_INCREMENT` -/
def LSIZE_INCREMENT : ℕ := 10

/-- `struct lock` -/
structure Lock (ID : Type) where
  chunkid : ℤ
  peer : ID
  timestamp : ℤ
  deriving DecidableEq, Repr

/-- `struct chunk_locks` -/
structure ChunkLocks (ID : Type) where
  locks : List (Lock ID)
  lsize : ℕ
  toutdiff : ℤ
  room : locks.length < lsize

variable {ID : Type}

/-- `chunk_locks_create` -/
def chunkLocksCreate (lockTimeoutMs : ℕ) : ChunkLocks ID where
  locks := []
  lsize := LSIZE_INCREMENT
  toutdiff := (lockTimeoutMs / 1000 : ℕ) * 1000000 + (lockTimeoutMs % 1000 : ℕ) * 1000
  room := by simp [LSIZE_INCREMENT]

namespace ChunkLocks

/-- `chunk_locks_cleanup`, from the last lock to the first, each with its own reading of the clock;
`n` is the number of the next one. -/
def chunkLocksCleanup (clk : Clock) (cl : ChunkLocks ID) (n : ℕ) : ChunkLocks ID × ℕ :=
  ({ cl with
    locks := (Lease.sweep clk Lock.timestamp cl.toutdiff cl.locks n).1
    room := Lease.sweep_sublist.length_le.trans_lt cl.room },
    (Lease.sweep clk Lock.timestamp cl.toutdiff cl.locks n).2)

/-- `chunk_lock` -/
def chunkLock (clk : Clock) (cl : ChunkLocks ID) (chunkid : ℤ) (peer : ID) (n : ℕ) :
    ChunkLocks ID × ℕ :=
  ({ cl with
    locks := cl.locks ++ [⟨chunkid, peer, clk.reading n⟩]
    lsize := if cl.locks.length + 1 = cl.lsize then cl.lsize + LSIZE_INCREMENT else cl.lsize
    room := by
      have hroom := cl.room
      rw [List.length_append, List.length_singleton]
      split_ifs with h
      · exact h ▸ Nat.lt_add_of_pos_right (by simp [LSIZE_INCREMENT])
      · omega },
    n + 1)

/-- `chunk_unlock` -/
def chunkUnlock (cl : ChunkLocks ID) (chunkid : ℤ) : ChunkLocks ID :=
  { cl with
    locks := cl.locks.eraseP (·.chunkid = chunkid)
    room := List.eraseP_sublist.length_le.trans_lt cl.room }

/-- `chunk_islocked` -/
def chunkIslocked (clk : Clock) (cl : ChunkLocks ID) (chunkid : ℤ) (n : ℕ) :
    Bool × ChunkLocks ID × ℕ :=
  let (cl, n) := cl.chunkLocksCleanup clk n
  (cl.locks.any (·.chunkid = chunkid), cl, n)

end ChunkLocks

/-- At most one lock for each chunk, and none from the future. -/
structure LocksInv (clk : Clock) (cl : ChunkLocks ID) (n : ℕ) : Prop where
  single : (cl.locks.map Lock.chunkid).Nodup
  past : ∀ l ∈ cl.locks, l.timestamp ≤ clk.reading n

/-- The lock on a chunk taken at time `t` is still there, or it has timed out. -/
abbrev LockSettled (clk : Clock) (chunkid t : ℤ) (cl : ChunkLocks ID) (n : ℕ) : Prop :=
  Lease.Settled clk Lock.chunkid Lock.timestamp cl.toutdiff chunkid t cl.locks n

/-- The invariant holds, and whatever was settled still is. -/
structure LocksKept (clk : Clock) (cl cl' : ChunkLocks ID) (n n' : ℕ) : Prop where
  inv : LocksInv clk cl' n'
  le : n ≤ n'
  tout : cl'.toutdiff = cl.toutdiff
  settled : ∀ i t, LockSettled clk i t cl n → LockSettled clk i t cl' n'

lemma LocksKept.refl {clk : Clock} {cl : ChunkLocks ID} {n : ℕ} (h : LocksInv clk cl n) :
    LocksKept clk cl cl n n :=
  ⟨h, le_rfl, rfl, fun _ _ hs => hs⟩

lemma LocksKept.trans {clk : Clock} {cl cl' cl'' : ChunkLocks ID} {n n' n'' : ℕ}
    (h : LocksKept clk cl cl' n n') (h' : LocksKept clk cl' cl'' n' n'') :
    LocksKept clk cl cl'' n n'' :=
  ⟨h'.inv, h.le.trans h'.le, h'.tout.trans h.tout, fun i t hs => h'.settled i t (h.settled i t hs)⟩

lemma chunkLocksCreate_inv (clk : Clock) (lockTimeoutMs n : ℕ) :
    LocksInv clk (chunkLocksCreate lockTimeoutMs : ChunkLocks ID) n :=
  ⟨List.nodup_nil, fun _ hl => absurd hl List.not_mem_nil⟩

lemma chunkLocksCreate_toutdiff (lockTimeoutMs : ℕ) :
    (chunkLocksCreate lockTimeoutMs : ChunkLocks ID).toutdiff = lockTimeoutMs * 1000 := by
  have h := Nat.div_add_mod lockTimeoutMs 1000
  simp only [chunkLocksCreate]
  omega

namespace ChunkLocks

variable {clk : Clock} {cl : ChunkLocks ID} {chunkid i t : ℤ} {peer : ID} {n : ℕ}

/-- **Looking a chunk up** removes what has timed out; a chunk that is not found has no lock. -/
lemma chunkIslocked_kept (h : LocksInv clk cl n) (chunkid : ℤ) :
    LocksKept clk cl (cl.chunkIslocked clk chunkid n).2.1 n (cl.chunkIslocked clk chunkid n).2.2
      ∧ ((cl.chunkIslocked clk chunkid n).1 = false →
        ∀ l ∈ (cl.chunkIslocked clk chunkid n).2.1.locks, l.chunkid ≠ chunkid) := by
  have hsub : (Lease.sweep clk Lock.timestamp cl.toutdiff cl.locks n).1.Sublist cl.locks :=
    Lease.sweep_sublist
  refine ⟨⟨⟨?_, fun l hl => ?_⟩, Lease.le_sweep_snd, rfl, fun i t hs => hs.sweep⟩, fun hfree => ?_⟩
  · exact h.single.sublist (hsub.map Lock.chunkid)
  · exact (h.past l (hsub.subset hl)).trans (clk.mono Lease.le_sweep_snd)
  · simpa [chunkIslocked] using hfree

/-- **Locking** a chunk that has no lock. -/
lemma chunkLock_kept (h : LocksInv clk cl n) (hfree : ∀ l ∈ cl.locks, l.chunkid ≠ chunkid)
    (peer : ID) :
    LocksKept clk cl (cl.chunkLock clk chunkid peer n).1 n (n + 1)
      ∧ LockSettled clk chunkid (clk.reading n) (cl.chunkLock clk chunkid peer n).1 (n + 1) := by
  have hlater : clk.reading n ≤ clk.reading (n + 1) := clk.mono (Nat.le_succ n)
  refine ⟨⟨⟨?_, fun l hl => ?_⟩, Nat.le_succ n, rfl, fun i t hs => ?_⟩, ?_⟩
  · simpa [chunkLock, List.nodup_append] using ⟨h.single, hfree⟩
  · rcases List.mem_append.mp hl with hl | hl
    · exact (h.past l hl).trans hlater
    · rw [List.mem_singleton.mp hl]
      exact hlater
  · exact hs.mono (fun l hl => List.mem_append_left _ hl) (Nat.le_succ n)
  · exact Or.inl ⟨⟨chunkid, peer, clk.reading n⟩, by simp [chunkLock], rfl, rfl⟩

/-- **Unlocking** keeps the locks on other chunks. -/
lemma chunkUnlock_inv (h : LocksInv clk cl n) (chunkid : ℤ) :
    LocksInv clk (cl.chunkUnlock chunkid) n :=
  ⟨h.single.sublist (List.eraseP_sublist.map _), fun l hl => h.past l (List.mem_of_mem_eraseP hl)⟩

lemma chunkUnlock_settled (hs : LockSettled clk i t cl n) (hne : i ≠ chunkid) :
    LockSettled clk i t (cl.chunkUnlock chunkid) n :=
  hs.eraseP hne

end ChunkLocks

end PeerStreamer
