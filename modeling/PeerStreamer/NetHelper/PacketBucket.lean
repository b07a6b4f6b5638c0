import PeerStreamer.Foundation.ListFacts
import PeerStreamer.NetHelper.OrdSet
import PeerStreamer.NetHelper.FragmentedPacket

/-!
# Packet buckets

`packet_bucket.c`: the packets sent to one node, or received from it.  A bucket holds every packet
twice, in `packet_set` by id and in `packet_list` by age; both are lists of pointers to the same
packets.  Here the set owns the packets and the list names them by their ids, so a pointer taken
from the list is followed with `PacketBucket.lookup`.

`PacketBucket.Wf` is the well-formedness every operation keeps: the set is sorted, the list has no
repetitions, and both hold the same packets.  Given it, `packetBucketPeriodicRefresh_eq` says that
the sweep drops the packets of `PacketBucket.swept` — the longest prefix of the list whose age has
reached the limit — and every operation has a lemma saying what `lookup` answers afterwards.
-/

namespace PeerStreamer

/-- `struct packet_bucket` -/
structure PacketBucket where
  packetList : List ℕ
  packetSet : OrdSet FragmentedPacket
  fragSize : ℕ
  maxPktAge : ℕ
  deriving DecidableEq

/-- `packet_cmp` -/
def packetCmp (p₁ p₂ : FragmentedPacket) : ℤ :=
  if p₁.packetId = p₂.packetId then 0 else if p₁.packetId > p₂.packetId then 1 else -1

/-- The packet `dummy` the lookups compare with: only its id is set. -/
def packetKey (pid : ℕ) : FragmentedPacket := ⟨pid, 0, []⟩

/-- `packet_bucket_create` -/
def packetBucketCreate (fragSize maxPktAge : ℕ) : PacketBucket :=
  { packetList := [], packetSet := ordSetNew 10, fragSize, maxPktAge }

/-- The packet stored under an id, found as the source does. -/
def PacketBucket.lookup (pb : PacketBucket) (pid : ℕ) : Option FragmentedPacket :=
  ordSetFind packetCmp pb.packetSet (packetKey pid)

/-- A new packet goes into the set and to the end of the list. -/
def PacketBucket.insert (pb : PacketBucket) (fp : FragmentedPacket) : PacketBucket :=
  { pb with
    packetSet := (ordSetInsert packetCmp pb.packetSet fp false).1
    packetList := pb.packetList ++ [fp.packetId] }

/-- A store to the packet with the id of `fp`. -/
def PacketBucket.store (pb : PacketBucket) (fp : FragmentedPacket) : PacketBucket :=
  { pb with packetSet := ordSetWrite packetCmp pb.packetSet fp }

/-- The first part of `packet_bucket_destroy_packet`: the packet leaves list and set. -/
def PacketBucket.remove (pb : PacketBucket) (fp : FragmentedPacket) : PacketBucket :=
  { pb with
    packetList := pb.packetList.erase fp.packetId
    packetSet := (ordSetRemove packetCmp pb.packetSet fp).1 }

/-- `packet_bucket_destroy_packet`.  Like all operations below it also takes and returns the list
`q` the fragments of the bucket may be linked into. -/
def packetBucketDestroyPacket (pb : PacketBucket) (fp : FragmentedPacket) (q : MsgList) :
    PacketBucket × MsgList :=
  (pb.remove fp, fragmentedPacketDestroy fp q)

/-- The loop of `packet_bucket_periodic_refresh`, over the part of the list still ahead. -/
def packetBucketRefreshLoop (currentTime : ℤ) :
    List ℕ → PacketBucket → MsgList → PacketBucket × MsgList
  | [], pb, q => (pb, q)
  | pos :: tmp, pb, q =>
      match pb.lookup pos with
      | none => (pb, q)
      | some fp =>
          if currentTime - fp.creationTimestamp ≥ pb.maxPktAge then
            let (pb, q) := packetBucketDestroyPacket pb fp q
            packetBucketRefreshLoop currentTime tmp pb q
          else (pb, q)

/-- `packet_bucket_periodic_refresh` at the clock reading `currentTime`. -/
def packetBucketPeriodicRefresh (pb : PacketBucket) (q : MsgList) (currentTime : ℤ) :
    PacketBucket × MsgList :=
  packetBucketRefreshLoop currentTime pb.packetList pb q

/-- `packet_bucket_add_packet`, with the readings of the clock by the sweep and by
`fragmented_packet_create`.  The third component is the list returned, `none` for NULL. -/
def packetBucketAddPacket (pb : PacketBucket) (src dst : NodeID) (pid : ℕ) (data : Bytes)
    (tSweep tCreate : ℤ) (q : MsgList) : Eval (PacketBucket × MsgList × Option MsgList) :=
  if data.length > 0 then
    let (pb, q) := packetBucketPeriodicRefresh pb q tSweep
    match fragmentedPacketCreate pid src dst data pb.fragSize tCreate [] with
    -- `ord_set_insert` answers NULL too, which passes the test, and `list_add_tail` follows it
    | (none, _) => .error .nullDereference
    | (some fp, res) =>
        -- `fp == insert_res` says that no packet with this id was in the set
        match ordSetFind packetCmp pb.packetSet fp with
        | none => .ok (pb.insert fp, q, some res)
        -- the list is freed first, then its elements are unlinked from it and it is returned
        | some _ => .error .useAfterFree
  else .ok (pb, q, none)

/-- `packet_bucket_add_fragment` -/
def packetBucketAddFragment (pb : PacketBucket) (f : Fragment) (requests q : MsgList)
    (tSweep tCreate : ℤ) : PacketBucket × PacketState × MsgList × MsgList :=
  let (pb, q) := packetBucketPeriodicRefresh pb q tSweep
  let (pb, fp) := match pb.lookup f.pid with
    | some fp => (pb, fp)
    | none =>
        let fp := fragmentedPacketEmpty f.pid f.fromNode f.toNode f.fragNum tCreate
        (pb.insert fp, fp)
  let (fp, res, requests, q) := fragmentedPacketWriteFragment fp f requests q
  (pb.store fp, res, requests, q)

/-- `packet_bucket_pop_packet` into a buffer of `size` bytes: the return code, the bytes written at
its start and the new value of `*size`. -/
def packetBucketPopPacket (pb : PacketBucket) (pid size : ℕ) (q : MsgList) (tSweep : ℤ) :
    PacketBucket × MsgList × ℤ × Bytes × ℕ :=
  let (pb, q) := packetBucketPeriodicRefresh pb q tSweep
  match pb.lookup pid with
  | none => (pb, q, -2, [], size)
  | some fp =>
      let (res, bytes) := fragmentedPacketDumpData fp size
      let (pb, q) := packetBucketDestroyPacket pb fp q
      (pb, q, res, bytes, bytes.length)

/-- `packet_bucket_get_fragment` -/
def packetBucketGetFragment (pb : PacketBucket) (pid fid : ℕ) (q : MsgList) (tSweep : ℤ) :
    PacketBucket × MsgList × Option Fragment :=
  let (pb, q) := packetBucketPeriodicRefresh pb q tSweep
  (pb, q, (pb.lookup pid).bind (fragmentedPacketFragment · fid))

/-! ## Well-formed buckets -/

lemma packetCmp_eq_zero {p₁ p₂ : FragmentedPacket} :
    packetCmp p₁ p₂ = 0 ↔ p₁.packetId = p₂.packetId := by
  rw [packetCmp]
  split_ifs <;> simp_all

lemma packetCmp_lawful : LawfulCmp packetCmp := by
  constructor
  · intro a b
    simp only [packetCmp]
    split_ifs <;> omega
  · intro a b c
    simp only [packetCmp]
    split_ifs <;> omega

/-- Set and list agree, the set is sorted and the list does not repeat itself. -/
structure PacketBucket.Wf (pb : PacketBucket) : Prop where
  sorted : pb.packetSet.Sorted packetCmp
  nodup : pb.packetList.Nodup
  listed : ∀ pid, pid ∈ pb.packetList ↔ (pb.lookup pid).isSome

namespace PacketBucket

variable {pb : PacketBucket} {fp : FragmentedPacket} {pid : ℕ}

lemma Wf.lookup_eq_some (h : pb.Wf) :
    pb.lookup pid = some fp ↔ fp ∈ pb.packetSet.elements ∧ fp.packetId = pid := by
  rw [lookup, ordSetFind_eq_some packetCmp_lawful h.sorted, packetCmp_eq_zero]
  rfl

lemma Wf.packetId_of_lookup (h : pb.Wf) (hl : pb.lookup pid = some fp) : fp.packetId = pid :=
  (h.lookup_eq_some.mp hl).2

/-- Only the id of the probe matters to a lookup. -/
lemma Wf.find_eq_lookup (h : pb.Wf) (fp : FragmentedPacket) :
    ordSetFind packetCmp pb.packetSet fp = pb.lookup fp.packetId := by
  ext x
  rw [h.lookup_eq_some, ordSetFind_eq_some packetCmp_lawful h.sorted, packetCmp_eq_zero]

lemma Wf.lookup_insert (h : pb.Wf) (hnew : pb.lookup fp.packetId = none) :
    (pb.insert fp).lookup pid = if fp.packetId = pid then some fp else pb.lookup pid := by
  rw [← h.find_eq_lookup] at hnew
  simp only [lookup, insert]
  rw [ordSetFind_insert packetCmp_lawful h.sorted hnew]
  exact if_congr packetCmp_eq_zero rfl rfl

lemma Wf.insert (h : pb.Wf) (hnew : pb.lookup fp.packetId = none) : (pb.insert fp).Wf where
  sorted := ordSetInsert_sorted packetCmp_lawful h.sorted _ (by rwa [h.find_eq_lookup])
  nodup := by
    refine List.nodup_append.mpr ⟨h.nodup, List.nodup_singleton _, ?_⟩
    rintro a ha b hb rfl
    rw [List.mem_singleton.mp hb, h.listed, hnew] at ha
    cases ha
  listed pid := by
    rw [h.lookup_insert hnew, PacketBucket.insert, List.mem_append, h.listed, List.mem_singleton]
    by_cases he : fp.packetId = pid
    · simp [he]
    · simp [he, Ne.symm he]

lemma Wf.lookup_store (h : pb.Wf) :
    (pb.store fp).lookup pid
      = if fp.packetId = pid then (pb.lookup pid).map fun _ => fp else pb.lookup pid := by
  simp only [lookup, store]
  rw [ordSetFind_write packetCmp_lawful h.sorted]
  exact if_congr packetCmp_eq_zero rfl rfl

lemma Wf.store (h : pb.Wf) : (pb.store fp).Wf where
  sorted := ordSetWrite_sorted packetCmp_lawful h.sorted fp
  nodup := h.nodup
  listed pid := by
    rw [h.lookup_store]
    split_ifs
    · rw [Option.isSome_map]
      exact h.listed pid
    · exact h.listed pid

lemma Wf.lookup_remove (h : pb.Wf) :
    (pb.remove fp).lookup pid = if fp.packetId = pid then none else pb.lookup pid := by
  simp only [lookup, remove]
  rw [ordSetFind_remove packetCmp_lawful h.sorted]
  exact if_congr packetCmp_eq_zero rfl rfl

lemma Wf.remove (h : pb.Wf) : (pb.remove fp).Wf where
  sorted := ordSetRemove_sorted packetCmp_lawful h.sorted fp
  nodup := h.nodup.erase _
  listed pid := by
    rw [h.lookup_remove, PacketBucket.remove, h.nodup.mem_erase_iff, h.listed]
    by_cases he : fp.packetId = pid
    · simp [he]
    · simp [he, Ne.symm he]

@[simp] lemma create_lookup (fragSize maxPktAge : ℕ) :
    (packetBucketCreate fragSize maxPktAge).lookup pid = none := rfl

lemma create_wf (fragSize maxPktAge : ℕ) : (packetBucketCreate fragSize maxPktAge).Wf where
  sorted := ordSetNew_sorted packetCmp 10
  nodup := List.nodup_nil
  listed pid := by simp [packetBucketCreate, lookup, ordSetFind, ordSetCheckPos, ordSetNew]

@[simp] lemma insert_maxPktAge : (pb.insert fp).maxPktAge = pb.maxPktAge := rfl
@[simp] lemma insert_fragSize : (pb.insert fp).fragSize = pb.fragSize := rfl
@[simp] lemma store_maxPktAge : (pb.store fp).maxPktAge = pb.maxPktAge := rfl
@[simp] lemma store_fragSize : (pb.store fp).fragSize = pb.fragSize := rfl
@[simp] lemma remove_maxPktAge : (pb.remove fp).maxPktAge = pb.maxPktAge := rfl
@[simp] lemma remove_fragSize : (pb.remove fp).fragSize = pb.fragSize := rfl

/-! ## The sweep -/

/-- The packet `pid` of the bucket has reached its age at `now`. -/
def expired (pb : PacketBucket) (now : ℤ) (pid : ℕ) : Bool :=
  (pb.lookup pid).any fun fp => now - fp.creationTimestamp ≥ pb.maxPktAge

/-- The packets a sweep at `now` drops: the sweep stops at the first one that is young enough. -/
def swept (pb : PacketBucket) (now : ℤ) : List ℕ := pb.packetList.takeWhile (pb.expired now)

/-- The bucket without the packets `dead`. -/
def without (pb : PacketBucket) (dead : List ℕ) : PacketBucket :=
  { pb with
    packetList := pb.packetList.filter (· ∉ dead)
    packetSet := ⟨pb.packetSet.size, pb.packetSet.elements.filter (·.packetId ∉ dead)⟩ }

/-- What destroying the packets `dead` of the bucket does to the list their fragments are on. -/
def unlink (pb : PacketBucket) (dead : List ℕ) (q : MsgList) : MsgList :=
  dead.foldl (fun q pid => (pb.lookup pid).elim q (fragmentedPacketDestroy · q)) q

@[simp] lemma without_nil : pb.without [] = pb := by simp [without]

lemma Wf.without (h : pb.Wf) (dead : List ℕ) :
    (pb.without dead).packetSet.Sorted packetCmp := h.sorted.sublist List.filter_sublist

lemma Wf.lookup_without (h : pb.Wf) (pid : ℕ) (dead : List ℕ) :
    (pb.without dead).lookup pid = if pid ∈ dead then none else pb.lookup pid := by
  ext x
  rw [lookup, ordSetFind_eq_some packetCmp_lawful (h.without dead), packetCmp_eq_zero,
    PacketBucket.without, List.mem_filter]
  simp only [packetKey, decide_eq_true_eq]
  split_ifs with hd
  · simp only [iff_false]
    rintro ⟨⟨-, hx⟩, rfl⟩
    exact hx hd
  · rw [h.lookup_eq_some]
    constructor
    · rintro ⟨⟨hx, -⟩, hid⟩
      exact ⟨hx, hid⟩
    · rintro ⟨hx, rfl⟩
      exact ⟨⟨hx, hd⟩, rfl⟩

lemma Wf.without_wf (h : pb.Wf) (dead : List ℕ) : (pb.without dead).Wf where
  sorted := h.without dead
  nodup := h.nodup.filter _
  listed pid := by
    rw [h.lookup_without, PacketBucket.without, List.mem_filter, h.listed]
    by_cases hd : pid ∈ dead <;> simp [hd]

lemma expired_remove (h : pb.Wf) (now : ℤ) {pid' : ℕ} (hne : fp.packetId ≠ pid') :
    (pb.remove fp).expired now pid' = pb.expired now pid' := by
  rw [expired, h.lookup_remove, if_neg hne]
  rfl

/-- Removing one packet and then the others is removing them all. -/
lemma Wf.remove_without (h : pb.Wf) (dead : List ℕ) :
    (pb.remove fp).without dead = pb.without (fp.packetId :: dead) := by
  simp only [PacketBucket.without, PacketBucket.remove,
    ordSetRemove_elements packetCmp_lawful h.sorted, h.nodup.erase_eq_filter, List.filter_filter,
    List.mem_cons, not_or, ne_eq, packetCmp_eq_zero]
  congr 1
  · refine List.filter_congr fun x _ => ?_
    by_cases hx : x = fp.packetId <;> simp [hx]
  · congr 1
    · simp only [ordSetRemove]
      split
      · split_ifs <;> rfl
      · rfl
    · refine List.filter_congr fun x _ => ?_
      simp [Bool.and_comm]

/-- **The loop drops exactly `swept`.** -/
lemma refreshLoop_eq (now : ℤ) (q : MsgList) (h : pb.Wf) :
    packetBucketRefreshLoop now pb.packetList pb q
      = (pb.without (pb.swept now), pb.unlink (pb.swept now) q) := by
  generalize hl : pb.packetList = l
  induction l generalizing pb q with
  | nil => simp [packetBucketRefreshLoop, swept, unlink, hl]
  | cons pos tmp ih =>
      obtain ⟨fp, hfp⟩ := Option.isSome_iff_exists.mp ((h.listed pos).mp (by simp [hl]))
      have hid : fp.packetId = pos := h.packetId_of_lookup hfp
      have hnd : pos ∉ tmp := (List.nodup_cons.mp (hl ▸ h.nodup)).1
      rw [packetBucketRefreshLoop, hfp]
      by_cases hage : now - fp.creationTimestamp ≥ pb.maxPktAge
      · have hexp : pb.expired now pos = true := by simp [expired, hfp, hage]
        have hrem : (pb.remove fp).packetList = tmp := by simp [PacketBucket.remove, hl, hid]
        -- the packets behind `pos` are as old, and as linked, in the bucket without it
        have hother : ∀ p ∈ tmp, fp.packetId ≠ p := fun p hp => by
          rw [hid]
          rintro rfl
          exact hnd hp
        have htake : (pb.remove fp).swept now = tmp.takeWhile (pb.expired now) := by
          rw [swept, hrem]
          exact takeWhile_congr_mem fun p hp => expired_remove h now (hother p hp)
        have hswept : pb.swept now = fp.packetId :: (pb.remove fp).swept now := by
          rw [htake, swept, hl, List.takeWhile_cons_of_pos hexp, hid]
        have hunlink : ∀ q, (pb.remove fp).unlink ((pb.remove fp).swept now) q
            = pb.unlink ((pb.remove fp).swept now) q := by
          intro q
          refine List.foldl_ext _ _ _ fun q p hp => ?_
          rw [htake] at hp
          rw [h.lookup_remove, if_neg (hother p (List.takeWhile_subset _ hp))]
        simp only [hage, if_true, packetBucketDestroyPacket]
        rw [ih _ h.remove hrem, hunlink, h.remove_without, hswept]
        refine Prod.ext rfl ?_
        rw [unlink, unlink, List.foldl_cons, hid, hfp]
        rfl
      · have hexp : pb.expired now pos = false := by simpa [expired, hfp] using hage
        simp [hage, swept, hl, hexp, unlink]

end PacketBucket

/-! ## What the operations do to the stored packets -/

section Operations

variable {pb : PacketBucket} {pid : ℕ} {f : Fragment}

/-- **The sweep.**  It drops exactly the packets of `swept`, and unlinks their fragments. -/
theorem packetBucketPeriodicRefresh_eq (h : pb.Wf) (q : MsgList) (now : ℤ) :
    packetBucketPeriodicRefresh pb q now
      = (pb.without (pb.swept now), pb.unlink (pb.swept now) q) :=
  PacketBucket.refreshLoop_eq now q h

/-- The bucket after a sweep at `now`. -/
def PacketBucket.fresh (pb : PacketBucket) (now : ℤ) : PacketBucket := pb.without (pb.swept now)

lemma PacketBucket.Wf.fresh (h : pb.Wf) (now : ℤ) : (pb.fresh now).Wf := h.without_wf _

@[simp] lemma PacketBucket.fresh_fragSize (now : ℤ) : (pb.fresh now).fragSize = pb.fragSize := rfl

@[simp] lemma PacketBucket.fresh_maxPktAge (now : ℤ) :
    (pb.fresh now).maxPktAge = pb.maxPktAge := rfl

/-- A sweep only ever removes packets. -/
lemma PacketBucket.Wf.lookup_of_fresh (h : pb.Wf) {now : ℤ} {fp : FragmentedPacket}
    (hl : (pb.fresh now).lookup pid = some fp) : pb.lookup pid = some fp := by
  rw [PacketBucket.fresh, h.lookup_without] at hl
  split_ifs at hl
  exact hl

/-- What a sweep drops is gone. -/
lemma PacketBucket.Wf.lookup_fresh_of_swept (h : pb.Wf) {now : ℤ} (hp : pid ∈ pb.swept now) :
    (pb.fresh now).lookup pid = none := by
  rw [PacketBucket.fresh, h.lookup_without, if_pos hp]

/-- What a sweep drops was there. -/
lemma PacketBucket.Wf.lookup_of_swept (h : pb.Wf) {now : ℤ} (hp : pid ∈ pb.swept now) :
    ∃ fp, pb.lookup pid = some fp :=
  Option.isSome_iff_exists.mp ((h.listed pid).mp (List.takeWhile_subset _ hp))

/-- A packet no sweep at `now` can drop: it is too young. -/
lemma PacketBucket.Wf.lookup_fresh_of_young (h : pb.Wf) {now : ℤ}
    (hy : ∀ fp, pb.lookup pid = some fp → now - fp.creationTimestamp < pb.maxPktAge) :
    (pb.fresh now).lookup pid = pb.lookup pid := by
  rw [PacketBucket.fresh, h.lookup_without, if_neg]
  intro hmem
  have hexp := List.mem_takeWhile_imp hmem
  cases hl : pb.lookup pid with
  | none => simp [PacketBucket.expired, hl] at hexp
  | some fp =>
      have := hy fp hl
      simp only [PacketBucket.expired, hl, Option.any_some, decide_eq_true_eq] at hexp
      omega

/-- The packet an arriving fragment is for: the stored one, if it outlives the sweep, or a new
one. -/
def PacketBucket.target (pb : PacketBucket) (f : Fragment) (tSweep tCreate : ℤ) :
    FragmentedPacket :=
  ((pb.fresh tSweep).lookup f.pid).getD
    (fragmentedPacketEmpty f.pid f.fromNode f.toNode f.fragNum tCreate)

lemma PacketBucket.Wf.target_packetId (h : pb.Wf) (tSweep tCreate : ℤ) :
    (pb.target f tSweep tCreate).packetId = f.pid := by
  rw [PacketBucket.target]
  cases hl : (pb.fresh tSweep).lookup f.pid with
  | none => rfl
  | some fp => exact (h.fresh tSweep).packetId_of_lookup hl

/-- The bucket in which the packet of an arriving fragment is present. -/
def PacketBucket.obtain (pb : PacketBucket) (f : Fragment) (tSweep tCreate : ℤ) : PacketBucket :=
  match (pb.fresh tSweep).lookup f.pid with
  | some _ => pb.fresh tSweep
  | none => (pb.fresh tSweep).insert (pb.target f tSweep tCreate)

lemma PacketBucket.Wf.obtain (h : pb.Wf) (tSweep tCreate : ℤ) :
    (pb.obtain f tSweep tCreate).Wf := by
  rw [PacketBucket.obtain]
  split
  · exact h.fresh tSweep
  next hl => exact (h.fresh tSweep).insert (by rwa [h.target_packetId])

lemma PacketBucket.Wf.lookup_obtain (h : pb.Wf) (tSweep tCreate : ℤ) :
    (pb.obtain f tSweep tCreate).lookup pid
      = if f.pid = pid then some (pb.target f tSweep tCreate)
        else (pb.fresh tSweep).lookup pid := by
  rw [PacketBucket.obtain]
  split
  next fp hl =>
    split_ifs with hp
    · rw [← hp, hl, PacketBucket.target, hl]
      rfl
    · rfl
  next hl =>
    rw [(h.fresh tSweep).lookup_insert (by rwa [h.target_packetId]), h.target_packetId]

/-- `packet_bucket_add_fragment` in one line: a write to the target. -/
lemma packetBucketAddFragment_eq (h : pb.Wf) (f : Fragment) (requests q : MsgList)
    (tSweep tCreate : ℤ) :
    packetBucketAddFragment pb f requests q tSweep tCreate
      = let w := fragmentedPacketWriteFragment (pb.target f tSweep tCreate) f requests
          (pb.unlink (pb.swept tSweep) q)
        ((pb.obtain f tSweep tCreate).store w.1, w.2) := by
  rw [packetBucketAddFragment, packetBucketPeriodicRefresh_eq h]
  simp only [PacketBucket.obtain, PacketBucket.target, PacketBucket.fresh]
  cases (pb.without (pb.swept tSweep)).lookup f.pid <;> rfl

/-- `packet_bucket_pop_packet` on a packet that is there. -/
lemma packetBucketPopPacket_some (h : pb.Wf) {q : MsgList} {size : ℕ} {tSweep : ℤ}
    {fp : FragmentedPacket} (hl : (pb.fresh tSweep).lookup pid = some fp) :
    packetBucketPopPacket pb pid size q tSweep
      = ((pb.fresh tSweep).remove fp,
         fragmentedPacketDestroy fp (pb.unlink (pb.swept tSweep) q),
         (fragmentedPacketDumpData fp size).1, (fragmentedPacketDumpData fp size).2,
         (fragmentedPacketDumpData fp size).2.length) := by
  rw [packetBucketPopPacket, packetBucketPeriodicRefresh_eq h]
  simp only [PacketBucket.fresh] at hl ⊢
  rw [hl]
  rfl

lemma packetBucketPopPacket_none (h : pb.Wf) {q : MsgList} {size : ℕ} {tSweep : ℤ}
    (hl : (pb.fresh tSweep).lookup pid = none) :
    packetBucketPopPacket pb pid size q tSweep
      = (pb.fresh tSweep, pb.unlink (pb.swept tSweep) q, -2, [], size) := by
  rw [packetBucketPopPacket, packetBucketPeriodicRefresh_eq h]
  simp only [PacketBucket.fresh] at hl ⊢
  rw [hl]

lemma packetBucketGetFragment_eq (h : pb.Wf) (fid : ℕ) (q : MsgList) (tSweep : ℤ) :
    packetBucketGetFragment pb pid fid q tSweep
      = (pb.fresh tSweep, pb.unlink (pb.swept tSweep) q,
         ((pb.fresh tSweep).lookup pid).bind (·.frags[fid]?)) := by
  rw [packetBucketGetFragment, packetBucketPeriodicRefresh_eq h]
  rfl

/-- `packet_bucket_add_packet` on a payload that is cut, under an id that is free. -/
lemma packetBucketAddPacket_eq (h : pb.Wf) {src dst : NodeID} {data : Bytes} {tSweep tCreate : ℤ}
    {q : MsgList} (hdata : 0 < data.length) (hsize : 0 < pb.fragSize)
    (hfree : (pb.fresh tSweep).lookup pid = none) :
    packetBucketAddPacket pb src dst pid data tSweep tCreate q
      = .ok ((pb.fresh tSweep).insert ⟨pid, tCreate, cutFragments src dst pid data pb.fragSize⟩,
          pb.unlink (pb.swept tSweep) q,
          some ((cutFragments src dst pid data pb.fragSize).map fragmentListElement)) := by
  rw [packetBucketAddPacket, if_pos hdata, packetBucketPeriodicRefresh_eq h]
  have hcut : fragmentedPacketCreate pid src dst data pb.fragSize tCreate []
      = (some ⟨pid, tCreate, cutFragments src dst pid data pb.fragSize⟩,
         (cutFragments src dst pid data pb.fragSize).map fragmentListElement) := by
    rw [fragmentedPacketCreate, if_pos ⟨hdata, hsize⟩]
    rfl
  have hfind := (h.fresh tSweep).find_eq_lookup
    ⟨pid, tCreate, cutFragments src dst pid data pb.fragSize⟩
  rw [hfree] at hfind
  simp only [PacketBucket.fresh] at hfind ⊢
  rw [show (pb.without (pb.swept tSweep)).fragSize = pb.fragSize from rfl, hcut]
  simp only [hfind]

end Operations

end PeerStreamer
