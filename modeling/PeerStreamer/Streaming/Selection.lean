import PeerStreamer.Foundation.ListFacts
import PeerStreamer.Streaming.Trader

/-!
# What is accepted from an offer

`chunk_trader_handle_offer` counts the ids that are offered in an array, and goes through this array
from its end.  No access is outside of it (`chunkTraderHandleOfferArray_eq`), and what is accepted
are the latest of the chunks that are neither in the buffer nor locked (`latest_useful`).
-/

namespace PeerStreamer

/-! ## The array of counters -/

section Counters

variable {B C ID : Type} [ChunkIDSet C] [ChunkBuffer B]

/-- `ids[k]` -/
def readCount (counts : List ℕ) (k : ℤ) : Eval ℕ :=
  if 0 ≤ k then
    match counts[k.toNat]? with
    | some c => .ok c
    | none => .error .outOfBounds
  else .error .outOfBounds

/-- `ids[cid - min] += 1` for every id of the set. -/
def countLoop (min : ℤ) : List ℤ → List ℕ → Eval (List ℕ)
  | [], counts => .ok counts
  | cid :: cids, counts =>
      if 0 ≤ cid - min ∧ cid - min < counts.length then
        countLoop min cids (counts.modify (cid - min).toNat (· + 1))
      else .error .outOfBounds

namespace Selection

/-- The selection loop on the array; `k` ids are left, from `cid` down. -/
def selectFromArray (clk : Clock) (p : ID) (counts : List ℕ) (min maxDeliver : ℤ) :
    (k : ℕ) → (cid : ℤ) → Selection B C ID → Eval (Selection B C ID)
  | 0, _, s => .ok s
  | k + 1, cid, s =>
      if min ≤ cid ∧ chunkIDSetSize s.accSet < maxDeliver then do
        let c ← readCount counts (cid - min)
        selectFromArray clk p counts min maxDeliver k (cid - 1) (s.select clk p (fun _ => c) cid)
      else .ok s

end Selection

/-- `chunk_trader_handle_offer` on the array of `max - min + 1` counters, all zero at first. -/
def chunkTraderHandleOfferArray (clk : Clock) (ct : ChunkTrader B ID) (p : ID) (cset : C)
    (maxDeliver : ℤ) : Eval (Selection B C ID) := do
  let min := ChunkIDSet.getEarliest cset
  let max := ChunkIDSet.getLatest cset
  let d ← cint (max - min)
  let n ← cint (d + 1)
  let counts ← countLoop min (ChunkIDSet.ids cset) (List.replicate n.toNat 0)
  Selection.selectFromArray clk p counts min maxDeliver n.toNat max ⟨ct, ChunkIDSet.init, []⟩

/-- The counters are those of the specification, or an access is outside of the array. -/
lemma countLoop_eq (min : ℤ) (cids : List ℤ) (counts : List ℕ) :
    countLoop min cids counts
      = if ∀ cid ∈ cids, 0 ≤ cid - min ∧ cid - min < counts.length
        then .ok (counts.mapIdx fun k c => c + cids.count (min + k))
        else .error .outOfBounds := by
  induction cids generalizing counts with
  | nil =>
      have hid : counts.mapIdx (fun k c => c + ([] : List ℤ).count (min + k)) = counts :=
        List.ext_getElem (by simp) fun k _ _ => by simp
      rw [countLoop, hid, if_pos (by simp)]
  | cons cid cids ih =>
      rw [countLoop]
      by_cases hcid : 0 ≤ cid - min ∧ cid - min < counts.length
      · rw [if_pos hcid, ih, List.length_modify]
        have hmap : (counts.modify (cid - min).toNat (· + 1)).mapIdx
              (fun k c => c + cids.count (min + k))
            = counts.mapIdx fun k c => c + (cid :: cids).count (min + k) := by
          refine List.ext_getElem (by simp) fun k hk hk' => ?_
          rw [List.getElem_mapIdx, List.getElem_mapIdx, List.getElem_modify, List.count_cons]
          by_cases hkc : (cid - min).toNat = k
          · have heq : cid = min + k := by omega
            rw [if_pos hkc, if_pos (by simpa using heq)]
            omega
          · have hne : cid ≠ min + k := by omega
            rw [if_neg hkc, if_neg (by simpa using hne), Nat.add_zero]
        rw [hmap]
        refine if_congr ?_ rfl rfl
        rw [List.forall_mem_cons]
        exact (and_iff_right hcid).symm
      · rw [if_neg hcid, if_neg]
        exact fun hall => hcid (hall cid List.mem_cons_self)

/-- The selection loop reads the counters of the ids from `min` up to `cid`, and no others. -/
lemma selectFromArray_eq {clk : Clock} {p : ID} {counts : List ℕ} {min maxDeliver : ℤ}
    {offered : ℤ → ℕ} (hcounts : ∀ k < counts.length, counts[k]? = some (offered (min + k)))
    {k : ℕ} (hk : k ≤ counts.length) {cid : ℤ} (hcid : 0 < k → cid = min + k - 1)
    (s : Selection B C ID) :
    s.selectFromArray clk p counts min maxDeliver k cid
      = .ok (s.selectLatest clk p offered maxDeliver k cid) := by
  induction k generalizing cid s with
  | zero => rfl
  | succ k ih =>
      have hlast : cid = min + k := by
        have hval := hcid k.succ_pos
        push_cast at hval
        omega
      rw [Selection.selectFromArray, Selection.selectLatest]
      by_cases hroom : chunkIDSetSize s.accSet < maxDeliver
      · have hread : readCount counts (cid - min) = .ok (offered cid) := by
          have hindex : cid - min = k := by omega
          rw [readCount, if_pos (by omega), hindex, Int.toNat_natCast, hcounts k hk, ← hlast]
        rw [if_pos ⟨by omega, hroom⟩, if_pos hroom, hread, Eval.ok_bind]
        have hselect : s.select clk p (fun _ => offered cid) cid = s.select clk p offered cid := rfl
        rw [hselect]
        exact ih (by omega) (fun _ => by omega) _
      · rw [if_neg fun h => hroom h.2, if_neg hroom]

/-- **The array does what the specification says**, for every set that is offered. -/
theorem chunkTraderHandleOfferArray_eq (clk : Clock) (ct : ChunkTrader B ID) (p : ID) (cset : C)
    (maxDeliver : ℤ) :
    chunkTraderHandleOfferArray clk ct p cset maxDeliver
      = ct.chunkTraderHandleOffer clk p cset maxDeliver := by
  rw [chunkTraderHandleOfferArray, ChunkTrader.chunkTraderHandleOffer]
  cases hd : cint (ChunkIDSet.getLatest cset - ChunkIDSet.getEarliest cset) with
  | error e => rfl
  | ok d =>
      rw [Eval.ok_bind, Eval.ok_bind]
      cases hn : cint (d + 1) with
      | error e => rfl
      | ok n =>
          rw [Eval.ok_bind, Eval.ok_bind, countLoop_eq, countIds, List.length_replicate]
          have hdval := eq_of_cint_eq_ok hd
          have hnval := eq_of_cint_eq_ok hn
          have hrange : (∀ cid ∈ ChunkIDSet.ids cset, 0 ≤ cid - ChunkIDSet.getEarliest cset
                ∧ cid - ChunkIDSet.getEarliest cset < (n.toNat : ℤ))
              ↔ ∀ cid ∈ ChunkIDSet.ids cset, 0 ≤ cid - ChunkIDSet.getEarliest cset
                ∧ cid - ChunkIDSet.getEarliest cset < n :=
            forall₂_congr fun cid _ => and_congr_right fun h0 => by omega
          by_cases hin : ∀ cid ∈ ChunkIDSet.ids cset, 0 ≤ cid - ChunkIDSet.getEarliest cset
              ∧ cid - ChunkIDSet.getEarliest cset < n
          · rw [if_pos (hrange.mpr hin), if_pos hin]
            refine selectFromArray_eq (fun k hk => ?_) (by simp) (fun hpos => by omega) _
            rw [List.length_mapIdx, List.length_replicate] at hk
            simp [hk]
          · rw [if_neg (mt hrange.mp hin), if_neg hin]
            rfl

end Counters

/-! ## Locks at one moment -/

section Moment

variable {ID : Type} {clk : Clock} {now cid : ℤ} {cl : ChunkLocks ID} {n : ℕ}

/-- The locks that have not timed out at `now`. -/
def unexpired (T now : ℤ) (locks : List (Lock ID)) : List (Lock ID) :=
  locks.filter fun l => now ≤ l.timestamp + T

/-- The chunk is locked at the time `now`. -/
def ChunkLocks.LockedAt (cl : ChunkLocks ID) (now cid : ℤ) : Prop :=
  ∃ l ∈ cl.locks, l.chunkid = cid ∧ now ≤ l.timestamp + cl.toutdiff

instance ChunkLocks.LockedAt.decidable (cl : ChunkLocks ID) (now cid : ℤ) :
    Decidable (cl.LockedAt now cid) :=
  inferInstanceAs (Decidable (∃ l ∈ cl.locks, _))

/-- What the lookup of a chunk leaves in the table, at one moment. -/
lemma chunkIslocked_at
    (hclk : ∀ m, n ≤ m → m < (cl.chunkIslocked clk cid n).2.2 → clk.reading m = now) :
    (cl.chunkIslocked clk cid n).2.1.locks = unexpired cl.toutdiff now cl.locks :=
  Lease.sweep_at fun m hn hm => hclk m hn (hm.trans_eq (Lease.sweep_snd cl.locks).symm)

/-- The answer of the lookup, at one moment. -/
lemma chunkIslocked_answer
    (hclk : ∀ m, n ≤ m → m < (cl.chunkIslocked clk cid n).2.2 → clk.reading m = now) :
    (cl.chunkIslocked clk cid n).1 = true ↔ cl.LockedAt now cid := by
  have hlocks := chunkIslocked_at hclk
  change (cl.chunkIslocked clk cid n).2.1.locks.any _ = true ↔ _
  rw [hlocks, List.any_eq_true, ChunkLocks.LockedAt]
  simp only [unexpired, List.mem_filter, decide_eq_true_eq, and_assoc]
  exact exists_congr fun l => and_congr_right fun _ => and_comm

end Moment

/-! ## The latest useful chunks -/

section Scan

variable {B C ID : Type} [ChunkIDSet C] {clk : Clock} {ct : ChunkTrader B ID} {p : ID} {now : ℤ}
  {acc : List ℤ} {s : Selection B C ID} {offered : ℤ → ℕ} {cid : ℤ}

/-- What has been scanned so far: the ids `acc` have been accepted. -/
structure Scanned (ct : ChunkTrader B ID) (p : ID) (now : ℤ) (acc : List ℤ)
    (s : Selection B C ID) : Prop where
  cb : s.ct.cb = ct.cb
  tout : s.ct.chLocks.toutdiff = ct.chLocks.toutdiff
  accSet : (ChunkIDSet.ids s.accSet).Perm acc
  locks : ∃ kept, s.ct.chLocks.locks = kept ++ acc.map (fun i => ⟨i, p, now⟩)
    ∧ kept.Sublist ct.chLocks.locks
    ∧ unexpired ct.chLocks.toutdiff now kept
      = unexpired ct.chLocks.toutdiff now ct.chLocks.locks

/-- Ids that have been accepted are locked; apart from them, nothing is that was not. -/
lemma Scanned.lockedAt_iff (h : Scanned ct p now acc s) (hcid : cid ∉ acc) :
    s.ct.chLocks.LockedAt now cid ↔ ct.chLocks.LockedAt now cid := by
  obtain ⟨kept, hlocks, -, hfilter⟩ := h.locks
  have hkept : ∀ l, l ∈ kept ∧ now ≤ l.timestamp + ct.chLocks.toutdiff
      ↔ l ∈ ct.chLocks.locks ∧ now ≤ l.timestamp + ct.chLocks.toutdiff := fun l => by
    have hmem := congrArg (l ∈ ·) hfilter
    simpa [unexpired, List.mem_filter] using hmem
  rw [ChunkLocks.LockedAt, ChunkLocks.LockedAt, h.tout, hlocks]
  constructor
  · rintro ⟨l, hl, hc, hnow⟩
    rcases List.mem_append.mp hl with hl | hl
    · exact ⟨l, ((hkept l).mp ⟨hl, hnow⟩).1, hc, hnow⟩
    · obtain ⟨i, hi, rfl⟩ := List.mem_map.mp hl
      exact absurd (hc ▸ hi) hcid
  · rintro ⟨l, hl, hc, hnow⟩
    exact ⟨l, List.mem_append_left _ ((hkept l).mpr ⟨hl, hnow⟩).1, hc, hnow⟩

/-- A lookup only removes what has timed out. -/
lemma Scanned.islocked (h : Scanned ct p now acc s) (htout : 0 ≤ ct.chLocks.toutdiff)
    {locked : Bool} {chLocks : ChunkLocks ID} {ticks : ℕ}
    (hcall : s.ct.chLocks.chunkIslocked clk cid s.ct.ticks = (locked, chLocks, ticks))
    (hclk : ∀ m, s.ct.ticks ≤ m → m < ticks → clk.reading m = now) :
    Scanned ct p now acc { s with ct := { s.ct with chLocks, ticks } } := by
  have hlocks : (s.ct.chLocks.chunkIslocked clk cid s.ct.ticks).2.1.locks
      = unexpired s.ct.chLocks.toutdiff now s.ct.chLocks.locks :=
    chunkIslocked_at (by rw [hcall]; exact hclk)
  have hsame : (s.ct.chLocks.chunkIslocked clk cid s.ct.ticks).2.1.toutdiff
      = s.ct.chLocks.toutdiff := rfl
  rw [hcall] at hlocks hsame
  obtain ⟨kept, hkept, hsub, hfilter⟩ := h.locks
  have hnew : unexpired ct.chLocks.toutdiff now (acc.map fun i => (⟨i, p, now⟩ : Lock ID))
      = acc.map fun i => (⟨i, p, now⟩ : Lock ID) := by
    refine List.filter_eq_self.mpr fun l hl => ?_
    obtain ⟨i, -, rfl⟩ := List.mem_map.mp hl
    simpa using htout
  refine ⟨h.cb, hsame.trans h.tout, h.accSet, unexpired ct.chLocks.toutdiff now kept, ?_,
    List.filter_sublist.trans hsub, ?_⟩
  · change chLocks.locks = _
    rw [hlocks, h.tout, hkept, unexpired, List.filter_append, ← unexpired, ← unexpired, hnew]
  · rw [hfilter, unexpired, unexpired, List.filter_filter]
    simp only [Bool.and_self]

variable [ChunkBuffer B]

/-- The chunk is neither in the buffer nor locked. -/
def Useful (ct : ChunkTrader B ID) (now cid : ℤ) : Prop :=
  (ChunkBuffer.getChunk ct.cb cid).isNone ∧ ¬ct.chLocks.LockedAt now cid

instance Useful.decidable (ct : ChunkTrader B ID) (now cid : ℤ) : Decidable (Useful ct now cid) :=
  inferInstanceAs (Decidable (_ ∧ _))

/-- The set that is accepted has the `maxDeliver` latest of the useful chunks, or all of them if
there are fewer, and these are what has been added to the lock table, behind what was there and has
not timed out. -/
structure LatestUseful (ct : ChunkTrader B ID) (p : ID) (cset : C) (maxDeliver now : ℤ)
    (s : Selection B C ID) : Prop where
  accepted : ∀ i, i ∈ ChunkIDSet.ids s.accSet ↔ i ∈ ChunkIDSet.ids cset ∧ Useful ct now i
    ∧ ((ChunkIDSet.ids cset).filter fun j => Useful ct now j ∧ i < j).length < maxDeliver
  locks : ∃ kept new, s.ct.chLocks.locks = kept ++ new
    ∧ kept.Sublist ct.chLocks.locks
    ∧ unexpired ct.chLocks.toutdiff now kept
      = unexpired ct.chLocks.toutdiff now ct.chLocks.locks
    ∧ (new.map Lock.chunkid).Perm (ChunkIDSet.ids s.accSet)
    ∧ ∀ l ∈ new, l.peer = p ∧ l.timestamp = now

/-- The clock stands still while the selection goes from `s` to `s'`. -/
def AtMoment (clk : Clock) (now : ℤ) (s s' : Selection B C ID) : Prop :=
  ∀ m, s.ct.ticks ≤ m → m < s'.ct.ticks → clk.reading m = now

lemma select_ticks (clk : Clock) (p : ID) (offered : ℤ → ℕ) (cid : ℤ) (s : Selection B C ID) :
    s.ct.ticks ≤ (s.select clk p offered cid).ct.ticks := by
  rw [Selection.select]
  split_ifs
  · have hle : s.ct.ticks ≤ (s.ct.chLocks.chunkIslocked clk cid s.ct.ticks).2.2 :=
      Lease.le_sweep_snd
    generalize s.ct.chLocks.chunkIslocked clk cid s.ct.ticks = r at hle
    obtain ⟨locked, chLocks, ticks⟩ := r
    cases locked with
    | true => exact hle
    | false => exact Nat.le_succ_of_le hle
  · exact le_rfl

lemma selectLatest_ticks (clk : Clock) (p : ID) (offered : ℤ → ℕ) (maxDeliver : ℤ) (n : ℕ)
    (cid : ℤ) (s : Selection B C ID) :
    s.ct.ticks ≤ (s.selectLatest clk p offered maxDeliver n cid).ct.ticks := by
  induction n generalizing cid s with
  | zero => exact le_rfl
  | succ n ih =>
      rw [Selection.selectLatest]
      split_ifs
      · exact (select_ticks clk p offered cid s).trans (ih _ _)
      · exact le_rfl

variable [LawfulChunkIDSet C]

/-- **One id**: it is accepted if it is offered and useful. -/
lemma Scanned.select (h : Scanned ct p now acc s) (hcid : cid ∉ acc)
    (htout : 0 ≤ ct.chLocks.toutdiff) (hclk : AtMoment clk now s (s.select clk p offered cid)) :
    Scanned ct p now (acc ++ if offered cid ≠ 0 ∧ Useful ct now cid then [cid] else [])
      (s.select clk p offered cid) := by
  have hlocked := h.lockedAt_iff hcid
  rw [Selection.select] at hclk ⊢
  by_cases hoffer : offered cid ≠ 0 ∧ (ChunkBuffer.getChunk s.ct.cb cid).isNone
  · rw [if_pos hoffer] at hclk ⊢
    cases hcall : s.ct.chLocks.chunkIslocked clk cid s.ct.ticks with
    | mk locked rest =>
        obtain ⟨chLocks, ticks⟩ := rest
        rw [hcall] at hclk
        cases locked with
        | true =>
            have hanswer : (s.ct.chLocks.chunkIslocked clk cid s.ct.ticks).1 = true
                ↔ s.ct.chLocks.LockedAt now cid :=
              chunkIslocked_answer (by rw [hcall]; exact hclk)
            rw [hcall, hlocked] at hanswer
            have hnot : ¬(offered cid ≠ 0 ∧ Useful ct now cid) := fun hu =>
              hu.2.2 (hanswer.mp rfl)
            rw [if_neg hnot, List.append_nil]
            exact h.islocked htout hcall hclk
        | false =>
            have hclk' : ∀ m, s.ct.ticks ≤ m → m < ticks → clk.reading m = now :=
              fun m hn hm => hclk m hn (Nat.lt_succ_of_lt hm)
            have hanswer : (s.ct.chLocks.chunkIslocked clk cid s.ct.ticks).1 = true
                ↔ s.ct.chLocks.LockedAt now cid :=
              chunkIslocked_answer (by rw [hcall]; exact hclk')
            rw [hcall, hlocked] at hanswer
            have huseful : offered cid ≠ 0 ∧ Useful ct now cid :=
              ⟨hoffer.1, h.cb ▸ hoffer.2, fun hl => Bool.false_ne_true (hanswer.mpr hl)⟩
            have hnow : clk.reading ticks = now := by
              refine hclk ticks ?_ (Nat.lt_succ_self ticks)
              have hle : s.ct.ticks ≤ (s.ct.chLocks.chunkIslocked clk cid s.ct.ticks).2.2 :=
                Lease.le_sweep_snd
              rwa [hcall] at hle
            have hclean := h.islocked htout hcall hclk'
            obtain ⟨kept, hkept, hsub, hfilter⟩ := hclean.locks
            rw [if_pos huseful]
            refine ⟨h.cb, hclean.tout, ?_, kept, ?_, hsub, hfilter⟩
            · exact ids_addChunk_perm h.accSet hcid
            · change chLocks.locks ++ [⟨cid, p, clk.reading ticks⟩] = _
              rw [hnow, List.map_append, ← List.append_assoc, ← hkept]
              rfl
  · have hnot : ¬(offered cid ≠ 0 ∧ Useful ct now cid) := fun hu =>
      hoffer ⟨hu.1, h.cb ▸ hu.2.1⟩
    rw [if_neg hoffer, if_neg hnot, List.append_nil]
    exact h

/-- The `n` ids from `cid` down. -/
def downFrom (cid : ℤ) (n : ℕ) : List ℤ := (List.range n).map fun k : ℕ => cid - k

lemma downFrom_succ (cid : ℤ) (n : ℕ) : downFrom cid (n + 1) = cid :: downFrom (cid - 1) n := by
  rw [downFrom, downFrom, List.range_succ_eq_map, List.map_cons, List.map_map]
  congr 1
  · simp
  · refine List.map_congr_left fun k _ => ?_
    simp only [Function.comp_apply, Nat.succ_eq_add_one]
    push_cast
    ring

/-- **The selection loop** accepts the first ids from `cid` down that are offered and useful. -/
lemma Scanned.selectLatest (htout : 0 ≤ ct.chLocks.toutdiff) {maxDeliver : ℤ} (n : ℕ)
    (h : Scanned ct p now acc s) (habove : ∀ i ∈ acc, cid < i)
    (hclk : AtMoment clk now s (s.selectLatest clk p offered maxDeliver n cid)) :
    Scanned ct p now
      (acc ++ ((downFrom cid n).filter fun i => offered i ≠ 0 ∧ Useful ct now i).take
        (maxDeliver - acc.length).toNat)
      (s.selectLatest clk p offered maxDeliver n cid) := by
  induction n generalizing acc cid s with
  | zero =>
      rw [downFrom, List.range_zero, List.map_nil, List.filter_nil, List.take_nil, List.append_nil]
      exact h
  | succ n ih =>
      have hsize : chunkIDSetSize s.accSet = acc.length := h.accSet.length_eq
      rw [Selection.selectLatest, hsize] at hclk ⊢
      by_cases hroom : (acc.length : ℤ) < maxDeliver
      · rw [if_pos hroom] at hclk ⊢
        have hfresh : cid ∉ acc := fun hmem => lt_irrefl cid (habove cid hmem)
        have hfirst : Scanned ct p now
            (acc ++ if offered cid ≠ 0 ∧ Useful ct now cid then [cid] else [])
            (s.select clk p offered cid) := h.select hfresh htout fun m hn hm =>
          hclk m hn (hm.trans_le (selectLatest_ticks clk p offered maxDeliver n _ _))
        have hrest : AtMoment clk now (s.select clk p offered cid)
            ((s.select clk p offered cid).selectLatest clk p offered maxDeliver n (cid - 1)) :=
          fun m hn hm => hclk m ((select_ticks clk p offered cid s).trans hn) hm
        rw [downFrom_succ]
        by_cases hu : offered cid ≠ 0 ∧ Useful ct now cid
        · rw [if_pos hu] at hfirst
          have hloop := ih hfirst (fun i hi => ?_) hrest
          · have hcount : (maxDeliver - acc.length).toNat
                = (maxDeliver - (acc ++ [cid]).length).toNat + 1 := by
              rw [List.length_append, List.length_singleton]
              omega
            rw [List.filter_cons_of_pos (by simpa using hu), hcount, List.take_succ_cons]
            rwa [List.append_assoc, List.singleton_append] at hloop
          · rcases List.mem_append.mp hi with hi | hi
            · exact (Int.sub_one_lt_of_le le_rfl).trans (habove i hi)
            · rw [List.mem_singleton.mp hi]
              exact Int.sub_one_lt_of_le le_rfl
        · rw [if_neg hu, List.append_nil] at hfirst
          rw [List.filter_cons_of_neg (by simpa using hu)]
          exact ih hfirst (fun i hi => (Int.sub_one_lt_of_le le_rfl).trans (habove i hi)) hrest
      · have hfull : (maxDeliver - acc.length).toNat = 0 := by omega
        rw [if_neg hroom, hfull, List.take_zero, List.append_nil]
        exact h

/-- A set that is offered, and the ids from its last one down. -/
lemma mem_downFrom {cid : ℤ} {n : ℕ} {i : ℤ} : i ∈ downFrom cid n ↔ cid - n < i ∧ i ≤ cid := by
  rw [downFrom, List.mem_map]
  constructor
  · rintro ⟨k, hk, rfl⟩
    rw [List.mem_range] at hk
    omega
  · rintro ⟨hlow, hhigh⟩
    exact ⟨(cid - i).toNat, List.mem_range.mpr (by omega), by omega⟩

lemma downFrom_decreasing (cid : ℤ) (n : ℕ) : (downFrom cid n).Pairwise fun i j => j < i := by
  rw [downFrom, List.pairwise_map]
  exact List.pairwise_lt_range.imp fun {k k'} hk => by omega

/-- The ids of a set that are useful, from the last one down. -/
lemma mem_filter_downFrom {cset : C} {n : ℕ}
    (hn : (n : ℤ) = ChunkIDSet.getLatest cset - ChunkIDSet.getEarliest cset + 1) {i : ℤ} :
    i ∈ (downFrom (ChunkIDSet.getLatest cset) n).filter
        (fun i => (ChunkIDSet.ids cset).count i ≠ 0 ∧ Useful ct now i)
      ↔ i ∈ ChunkIDSet.ids cset ∧ Useful ct now i := by
  rw [List.mem_filter, mem_downFrom, decide_eq_true_eq, ← Nat.pos_iff_ne_zero, List.count_pos_iff]
  constructor
  · exact fun h => h.2
  · intro h
    have hlow := LawfulChunkIDSet.getEarliest_le cset i h.1
    have hhigh := LawfulChunkIDSet.le_getLatest cset i h.1
    exact ⟨by omega, h⟩

/-- What has been scanned at the end are the latest useful chunks. -/
lemma Scanned.latestUseful {cset : C} {maxDeliver : ℤ} {n : ℕ}
    (hn : (n : ℤ) = ChunkIDSet.getLatest cset - ChunkIDSet.getEarliest cset + 1)
    (h : Scanned ct p now (((downFrom (ChunkIDSet.getLatest cset) n).filter fun i =>
      (ChunkIDSet.ids cset).count i ≠ 0 ∧ Useful ct now i).take maxDeliver.toNat) s) :
    LatestUseful ct p cset maxDeliver now s := by
  constructor
  · intro i
    have hdecreasing := (downFrom_decreasing (ChunkIDSet.getLatest cset) n).filter
      fun i => (ChunkIDSet.ids cset).count i ≠ 0 ∧ Useful ct now i
    rw [h.accSet.mem_iff, mem_take_iff_of_decreasing hdecreasing, mem_filter_downFrom hn, and_assoc]
    refine and_congr_right fun _ => and_congr_right fun _ => ?_
    -- the useful ids above `i`, in the order of the scan and in that of the set
    have hperm : (((downFrom (ChunkIDSet.getLatest cset) n).filter fun i =>
          (ChunkIDSet.ids cset).count i ≠ 0 ∧ Useful ct now i).filter (i < ·)).Perm
        ((ChunkIDSet.ids cset).filter fun j => Useful ct now j ∧ i < j) := by
      have hnodup := hdecreasing.imp fun {a b} (hab : b < a) => hab.ne'
      refine (List.perm_ext_iff_of_nodup (hnodup.filter _)
        ((LawfulChunkIDSet.nodup_ids cset).filter _)).mpr fun j => ?_
      rw [List.mem_filter, mem_filter_downFrom hn, List.mem_filter]
      simp only [decide_eq_true_eq, and_assoc]
    rw [hperm.length_eq]
    omega
  · obtain ⟨kept, hlocks, hsub, hfilter⟩ := h.locks
    refine ⟨kept, _, hlocks, hsub, hfilter, ?_, fun l hl => ?_⟩
    · rw [List.map_map]
      exact (List.map_id _).symm ▸ h.accSet.symm
    · obtain ⟨i, -, rfl⟩ := List.mem_map.mp hl
      exact ⟨rfl, rfl⟩

/-- **The latest useful chunks are accepted.**  Of any set of ids whose range fits an `int`, with
any buffer and any locks, and as many as are wanted; the counters are never read or written outside
of their array, and when the clock stands still during the call. -/
theorem latest_useful (clk : Clock) (ct : ChunkTrader B ID) (p : ID) (cset : C)
    (maxDeliver now : ℤ) (htout : 0 ≤ ct.chLocks.toutdiff)
    (hpos : 0 ≤ ChunkIDSet.getLatest cset - ChunkIDSet.getEarliest cset + 1)
    (hfit : ChunkIDSet.getLatest cset - ChunkIDSet.getEarliest cset + 1 ≤ INT_MAX) :
    ∃ s, chunkTraderHandleOfferArray clk ct p cset maxDeliver = .ok s
      ∧ (AtMoment clk now ⟨ct, ChunkIDSet.init, []⟩ s →
        LatestUseful ct p cset maxDeliver now s) := by
  have hmin : INT_MIN + 1 ≤ 0 := by decide
  have hd : cint (ChunkIDSet.getLatest cset - ChunkIDSet.getEarliest cset)
      = .ok (ChunkIDSet.getLatest cset - ChunkIDSet.getEarliest cset) :=
    cint_ok (by omega) (by omega)
  have hn : cint (ChunkIDSet.getLatest cset - ChunkIDSet.getEarliest cset + 1)
      = .ok (ChunkIDSet.getLatest cset - ChunkIDSet.getEarliest cset + 1) :=
    cint_ok (by omega) (by omega)
  have hrange : ∀ cid ∈ ChunkIDSet.ids cset, 0 ≤ cid - ChunkIDSet.getEarliest cset
      ∧ cid - ChunkIDSet.getEarliest cset
        < ChunkIDSet.getLatest cset - ChunkIDSet.getEarliest cset + 1 := fun cid hcid => by
    have hlow := LawfulChunkIDSet.getEarliest_le cset cid hcid
    have hhigh := LawfulChunkIDSet.le_getLatest cset cid hcid
    omega
  rw [chunkTraderHandleOfferArray_eq, ChunkTrader.chunkTraderHandleOffer, hd, Eval.ok_bind, hn,
    Eval.ok_bind, countIds, if_pos hrange]
  refine ⟨_, rfl, fun hclk => ?_⟩
  have hstart : Scanned ct p now [] (⟨ct, ChunkIDSet.init, []⟩ : Selection B C ID) :=
    ⟨rfl, rfl, by rw [LawfulChunkIDSet.ids_init], ct.chLocks.locks, (List.append_nil _).symm,
      List.Sublist.refl _, rfl⟩
  have hscan := hstart.selectLatest htout _ (fun i hi => absurd hi List.not_mem_nil) hclk
  rw [List.nil_append, List.length_nil, Nat.cast_zero, sub_zero] at hscan
  exact hscan.latestUseful (Int.toNat_of_nonneg hpos)

end Scan

/-- A trader with the chunk `7` in its buffer and a lock on the chunk `9`. -/
def busyTrader : ChunkTrader ChunkList ℕ :=
  { chunkTraderCreate ⟨10, [⟨7, 0, 0, 0, [], []⟩]⟩ .uniform 1 1 1 with
    chLocks := ⟨[⟨9, 5, 0⟩, ⟨4, 5, -90000⟩], 10, 80000, by decide⟩ }

/-- Of six chunks one is in the buffer and one is locked; the lock on a third has timed out. -/
theorem latest_useful_gaps :
    ∃ s, chunkTraderHandleOfferArray (.ticking 0) busyTrader 1
        (⟨[2, 9, 4, 7, 12, 3], by decide⟩ : IDList) 2 = .ok s
      ∧ LatestUseful busyTrader 1 (⟨[2, 9, 4, 7, 12, 3], by decide⟩ : IDList) 2 0 s := by
  obtain ⟨s, hs, hlatest⟩ := latest_useful (.ticking 0) busyTrader 1
    (⟨[2, 9, 4, 7, 12, 3], by decide⟩ : IDList) 2 0 (by decide) (by decide) (by decide)
  exact ⟨s, hs, hlatest fun m _ _ => by simp [Clock.ticking]⟩

end PeerStreamer
