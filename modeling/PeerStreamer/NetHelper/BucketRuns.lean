import PeerStreamer.Foundation.Run
import PeerStreamer.NetHelper.Rejected

/-!
# Runs of a bucket

A packet bucket, over any run of its operations, is a map from ids to packets in which a packet
lives until it has reached its age (`PacketMap`): every call answers as on the map, and the list and
the set hold the packets of the map, the one ordered by age and the other by id
(`bucket_refines_map`).
-/

namespace PeerStreamer

/-! ## Packets that live for a time -/

/-- The packets of a bucket, by their ids. -/
@[ext]
structure PacketMap where
  stored : ℕ → Option FragmentedPacket
  fragSize : ℕ
  maxPktAge : ℕ

namespace PacketMap

/-- The packet is younger than the limit. -/
def Young (m : PacketMap) (now : ℤ) (fp : FragmentedPacket) : Prop :=
  now - fp.creationTimestamp < m.maxPktAge

instance (m : PacketMap) (now : ℤ) (fp : FragmentedPacket) : Decidable (m.Young now fp) :=
  inferInstanceAs (Decidable (_ < _))

/-- The packet that is stored under the id and has not reached its age. -/
def live (m : PacketMap) (now : ℤ) (pid : ℕ) : Option FragmentedPacket :=
  (m.stored pid).filter fun fp => m.Young now fp

/-- The packets that have not reached their age, and one under `pid` that replaces what is there. -/
def set (m : PacketMap) (now : ℤ) (pid : ℕ) (fp : Option FragmentedPacket) : PacketMap :=
  { m with stored := Function.update (m.live now) pid fp }

end PacketMap

/-! ## The calls -/

/-- A call, with the list the fragments may be linked into and the readings of the clock that it
makes. -/
inductive BucketOp
  | addPacket (src dst : NodeID) (pid : ℕ) (data : Bytes) (q : MsgList) (tSweep tCreate : ℤ)
  | addFragment (f : Fragment) (requests q : MsgList) (tSweep tCreate : ℤ)
  | popPacket (pid size : ℕ) (q : MsgList) (tSweep : ℤ)
  | getFragment (pid fid : ℕ) (q : MsgList) (tSweep : ℤ)

/-- What a call answers. -/
inductive BucketAnswer
  | added (msgs : Option MsgList)
  | written (res : PacketState) (requests : MsgList)
  | popped (res : ℤ) (bytes : Bytes) (size : ℕ)
  | got (f : Option Fragment)

/-- A bucket, and the last reading of the clock. -/
structure ClockedBucket where
  pb : PacketBucket
  now : ℤ

/-- One call. -/
def bucketStep (s : ClockedBucket) : BucketOp → Eval (ClockedBucket × BucketAnswer)
  | .addPacket src dst pid data q tSweep tCreate => do
      let (pb, _, msgs) ← packetBucketAddPacket s.pb src dst pid data tSweep tCreate q
      return (⟨pb, tCreate⟩, .added msgs)
  | .addFragment f requests q tSweep tCreate =>
      let (pb, res, requests, _) := packetBucketAddFragment s.pb f requests q tSweep tCreate
      .ok (⟨pb, tCreate⟩, .written res requests)
  | .popPacket pid size q tSweep =>
      let (pb, _, res, bytes, size) := packetBucketPopPacket s.pb pid size q tSweep
      .ok (⟨pb, tSweep⟩, .popped res bytes size)
  | .getFragment pid fid q tSweep =>
      let (pb, _, f) := packetBucketGetFragment s.pb pid fid q tSweep
      .ok (⟨pb, tSweep⟩, .got f)

/-- The call on the map. -/
def mapStep (m : PacketMap) : BucketOp → PacketMap × BucketAnswer
  | .addPacket src dst pid data _ tSweep tCreate =>
      if 0 < data.length then
        let frags := cutFragments src dst pid data m.fragSize
        (m.set tSweep pid (some ⟨pid, tCreate, frags⟩),
          .added (some (frags.map fragmentListElement)))
      else (m, .added none)
  | .addFragment f requests _ tSweep tCreate =>
      let fp := (m.live tSweep f.pid).getD
        (fragmentedPacketEmpty f.pid f.fromNode f.toNode f.fragNum tCreate)
      (m.set tSweep f.pid (some (fp.put f)),
        .written (arrivalState fp f) (requests ++ arrivalRequests fp f))
  | .popPacket pid size _ tSweep =>
      (m.set tSweep pid none,
        match m.live tSweep pid with
        | none => .popped (-2) [] size
        | some fp => .popped (fragmentedPacketDumpData fp size).1
            (fragmentedPacketDumpData fp size).2 (fragmentedPacketDumpData fp size).2.length)
  | .getFragment pid fid _ tSweep =>
      (m.set tSweep pid (m.live tSweep pid), .got ((m.live tSweep pid).bind (·.frags[fid]?)))

/-- The packets of a bucket. -/
def PacketBucket.packets (pb : PacketBucket) : PacketMap := ⟨pb.lookup, pb.fragSize, pb.maxPktAge⟩

/-- The clock does not go back during the call, nor has it since the last one, and a packet is only
added under an id that no packet has which is alive. -/
def BucketOp.Allowed (s : ClockedBucket) : BucketOp → Prop
  | .addPacket _ _ pid _ _ tSweep tCreate =>
      s.now ≤ tSweep ∧ tSweep ≤ tCreate ∧ s.pb.packets.live tSweep pid = none
  | .addFragment _ _ _ tSweep tCreate => s.now ≤ tSweep ∧ tSweep ≤ tCreate
  | .popPacket _ _ _ tSweep => s.now ≤ tSweep
  | .getFragment _ _ _ tSweep => s.now ≤ tSweep

instance BucketOp.Allowed.decidable (s : ClockedBucket) :
    (op : BucketOp) → Decidable (op.Allowed s)
  | .addPacket _ _ pid _ _ tSweep tCreate =>
      inferInstanceAs (Decidable (s.now ≤ tSweep ∧ tSweep ≤ tCreate
        ∧ s.pb.packets.live tSweep pid = none))
  | .addFragment _ _ _ tSweep tCreate =>
      inferInstanceAs (Decidable (s.now ≤ tSweep ∧ tSweep ≤ tCreate))
  | .popPacket _ _ _ tSweep => inferInstanceAs (Decidable (s.now ≤ tSweep))
  | .getFragment _ _ _ tSweep => inferInstanceAs (Decidable (s.now ≤ tSweep))

/-! ## List and set -/

/-- The packets on the list, in its order. -/
def PacketBucket.inOrder (pb : PacketBucket) : List FragmentedPacket :=
  pb.packetList.filterMap pb.lookup

/-- List and set hold the same packets, the list by creation time and the set by id. -/
structure Consistent (pb : PacketBucket) : Prop where
  listed : pb.inOrder.map (·.packetId) = pb.packetList
  same : pb.inOrder.Perm pb.packetSet.elements
  byId : pb.packetSet.elements.Pairwise fun p p' => p.packetId < p'.packetId
  byAge : pb.inOrder.Pairwise fun p p' => p.creationTimestamp ≤ p'.creationTimestamp

/-- A sweep at `now` leaves exactly the packets that are younger than the limit, in the list and in
the set. -/
structure SweepExact (pb : PacketBucket) (q : MsgList) (now : ℤ) : Prop where
  inSet : (packetBucketPeriodicRefresh pb q now).1.packetSet.elements
    = pb.packetSet.elements.filter fun fp => pb.packets.Young now fp
  inList : (packetBucketPeriodicRefresh pb q now).1.inOrder
    = pb.inOrder.filter fun fp => pb.packets.Young now fp
  lookup : (packetBucketPeriodicRefresh pb q now).1.lookup = pb.packets.live now

namespace PacketBucket

variable {pb : PacketBucket} {now t tCreate : ℤ} {pid : ℕ} {fp : FragmentedPacket} {f : Fragment}

lemma Wf.lookup_self (h : pb.Wf) (hfp : fp ∈ pb.packetSet.elements) :
    pb.lookup fp.packetId = some fp :=
  h.lookup_eq_some.mpr ⟨hfp, rfl⟩

lemma Wf.mem_inOrder (h : pb.Wf) : fp ∈ pb.inOrder ↔ fp ∈ pb.packetSet.elements := by
  rw [inOrder, List.mem_filterMap]
  constructor
  · rintro ⟨pid, -, hl⟩
    exact (h.lookup_eq_some.mp hl).1
  · intro hfp
    have hl := h.lookup_self hfp
    exact ⟨fp.packetId, (h.listed _).mpr (by rw [hl]; rfl), hl⟩

/-- Every element of the list points to a packet of the set. -/
lemma Wf.map_inOrder (h : pb.Wf) : pb.inOrder.map (·.packetId) = pb.packetList := by
  have hid : ∀ pid ∈ pb.packetList, (pb.lookup pid).map (·.packetId) = some pid := by
    intro pid hpid
    obtain ⟨fp, hl⟩ := Option.isSome_iff_exists.mp ((h.listed pid).mp hpid)
    rw [hl, Option.map_some, h.packetId_of_lookup hl]
  rw [inOrder, List.map_filterMap, List.filterMap_congr hid, List.filterMap_some]

lemma Wf.consistent (h : pb.Wf) (haged : pb.Aged now) : Consistent pb where
  listed := h.map_inOrder
  same := by
    have hnodup : pb.packetSet.elements.Nodup := h.sorted.imp fun {a b} hab he => by
      rw [he, packetCmp_lawful.refl] at hab
      exact lt_irrefl 0 hab
    have hnodup' : pb.inOrder.Nodup := List.Nodup.of_map (·.packetId) (h.map_inOrder ▸ h.nodup)
    exact (List.perm_ext_iff_of_nodup hnodup' hnodup).mpr fun fp => h.mem_inOrder
  byId := h.sorted.imp fun {a b} hab => by
    simp only [packetCmp] at hab
    split_ifs at hab <;> omega
  byAge := by
    rw [inOrder, List.pairwise_filterMap]
    exact haged.sorted.imp fun hs fp hl fp' hl' => hs fp fp' hl hl'

/-- What the sweep drops, once more: the packets that are not young. -/
lemma Wf.packetId_mem_swept (h : pb.Wf) (haged : pb.Aged now) (hl : pb.lookup pid = some fp)
    (t : ℤ) : pid ∈ pb.swept t ↔ ¬pb.packets.Young t fp := by
  rw [h.mem_swept_iff haged, PacketMap.Young, not_lt]
  constructor
  · rintro ⟨fp', hl', hage⟩
    obtain rfl := Option.some.inj (hl.symm.trans hl')
    exact hage
  · exact fun hage => ⟨fp, hl, hage⟩

/-- **A lookup finds exactly the packets that are alive.** -/
lemma Wf.lookup_fresh (h : pb.Wf) (haged : pb.Aged now) (t : ℤ) :
    (pb.fresh t).lookup = pb.packets.live t := by
  funext pid
  rw [PacketBucket.fresh, h.lookup_without, PacketMap.live]
  change _ = (pb.lookup pid).filter _
  cases hl : pb.lookup pid with
  | none => simp
  | some fp =>
      have hswept := h.packetId_mem_swept haged hl t
      by_cases hy : pb.packets.Young t fp
      · simp [hswept, hy, Option.filter_some]
      · simp [hswept, hy, Option.filter_some]

lemma Wf.sweepExact (h : pb.Wf) (haged : pb.Aged now) (q : MsgList) (t : ℤ) :
    SweepExact pb q t := by
  have hfresh : (packetBucketPeriodicRefresh pb q t).1 = pb.fresh t := by
    rw [packetBucketPeriodicRefresh_eq h]
    rfl
  refine ⟨?_, ?_, ?_⟩
  · rw [hfresh]
    refine List.filter_congr fun fp hfp => ?_
    have hswept := h.packetId_mem_swept haged (h.lookup_self hfp) t
    simp [hswept]
  · rw [hfresh, inOrder, inOrder, h.lookup_fresh haged, List.filter_filterMap]
    change (pb.packetList.filter (· ∉ pb.swept t)).filterMap _ = _
    rw [List.filterMap_filter]
    refine List.filterMap_congr fun pid _ => ?_
    rw [← h.lookup_fresh haged]
    split_ifs with hs
    · rw [h.lookup_fresh haged]
      rfl
    · have hdead : pid ∈ pb.swept t := by simpa using hs
      have hnone := h.lookup_fresh_of_swept hdead
      rw [h.lookup_fresh haged] at hnone
      exact hnone.symm
  · rw [hfresh]
    exact h.lookup_fresh haged t

lemma packets_set {pb' : PacketBucket} {fp? : Option FragmentedPacket}
    (hlook : ∀ pid', pb'.lookup pid' = if pid = pid' then fp? else pb.packets.live t pid')
    (hsize : pb'.fragSize = pb.fragSize) (hage : pb'.maxPktAge = pb.maxPktAge) :
    pb'.packets = pb.packets.set t pid fp? := by
  refine PacketMap.ext (funext fun pid' => ?_) hsize hage
  exact (hlook pid').trans ((if_congr eq_comm rfl rfl).trans (Function.update_apply _ _ _ _).symm)

@[simp] lemma arrived_fragSize : (pb.arrived f t tCreate).fragSize = pb.fragSize := by
  rw [arrived, store_fragSize, PacketBucket.obtain]
  split <;> rfl

@[simp] lemma popped_fragSize (pid : ℕ) : (pb.popped pid t).fragSize = pb.fragSize := by
  rw [popped]
  split <;> rfl

end PacketBucket

/-! ## Runs -/

/-- The bucket holds the packets of the map, and is well-formed and ordered by age. -/
structure RefinesMap (s : ClockedBucket) (m : PacketMap) : Prop where
  packets : s.pb.packets = m
  wf : s.pb.Wf
  aged : s.pb.Aged s.now
  cuts : 1 ≤ s.pb.fragSize

lemma packetBucketCreate_refinesMap {fragSize : ℕ} (hfrag : 1 ≤ fragSize) (maxPktAge : ℕ)
    (now : ℤ) :
    RefinesMap ⟨packetBucketCreate fragSize maxPktAge, now⟩
      ⟨fun _ => none, fragSize, maxPktAge⟩ where
  packets := rfl
  wf := PacketBucket.create_wf fragSize maxPktAge
  aged := ⟨List.Pairwise.nil, fun _ _ hl => absurd hl (by simp)⟩
  cuts := hfrag

section Steps

variable {s : ClockedBucket} {m : PacketMap}

lemma RefinesMap.addPacket (h : RefinesMap s m) {src dst : NodeID} {pid : ℕ} {data : Bytes}
    {q : MsgList} {tSweep tCreate : ℤ} (hnow : s.now ≤ tSweep) (hcreate : tSweep ≤ tCreate)
    (hfree : s.pb.packets.live tSweep pid = none) :
    ∃ s', bucketStep s (.addPacket src dst pid data q tSweep tCreate)
        = .ok (s', (mapStep m (.addPacket src dst pid data q tSweep tCreate)).2)
      ∧ RefinesMap s' (mapStep m (.addPacket src dst pid data q tSweep tCreate)).1 := by
  obtain rfl := h.packets
  by_cases hdata : 0 < data.length
  · have hfree' : (s.pb.fresh tSweep).lookup pid = none := by
      rw [h.wf.lookup_fresh h.aged, hfree]
    set fp : FragmentedPacket := ⟨pid, tCreate, cutFragments src dst pid data s.pb.fragSize⟩
    have hadd : packetBucketAddPacket s.pb src dst pid data tSweep tCreate q
        = .ok ((s.pb.fresh tSweep).insert fp, s.pb.unlink (s.pb.swept tSweep) q,
          some (fp.frags.map fragmentListElement)) :=
      packetBucketAddPacket_eq h.wf hdata h.cuts hfree'
    have hlook : ∀ pid', ((s.pb.fresh tSweep).insert fp).lookup pid'
        = if pid = pid' then some fp else (s.pb.fresh tSweep).lookup pid' :=
      fun _ => (h.wf.fresh tSweep).lookup_insert hfree'
    rw [mapStep, if_pos hdata]
    refine ⟨⟨(s.pb.fresh tSweep).insert fp, tCreate⟩, ?_, ?_, (h.wf.fresh tSweep).insert hfree', ?_,
      h.cuts⟩
    · rw [bucketStep, hadd]
      rfl
    · refine PacketBucket.packets_set (fun pid' => ?_) rfl rfl
      rw [hlook, h.wf.lookup_fresh h.aged]
      rfl
    · exact (h.aged.fresh h.wf tSweep).insert (h.wf.fresh tSweep) hfree' (hnow.trans hcreate)
  · rw [bucketStep, mapStep, if_neg hdata, packetBucketAddPacket, if_neg hdata]
    exact ⟨_, rfl, rfl, h.wf, h.aged.mono (hnow.trans hcreate), h.cuts⟩

lemma RefinesMap.addFragment (h : RefinesMap s m) {f : Fragment} {requests q : MsgList}
    {tSweep tCreate : ℤ} (hnow : s.now ≤ tSweep) (hcreate : tSweep ≤ tCreate) :
    ∃ s', bucketStep s (.addFragment f requests q tSweep tCreate)
        = .ok (s', (mapStep m (.addFragment f requests q tSweep tCreate)).2)
      ∧ RefinesMap s' (mapStep m (.addFragment f requests q tSweep tCreate)).1 := by
  obtain rfl := h.packets
  obtain ⟨hbucket, hstate, hreq⟩ :=
    packetBucketAddFragment_fields h.wf f requests q tSweep tCreate
  have htarget : s.pb.target f tSweep tCreate = (s.pb.packets.live tSweep f.pid).getD
      (fragmentedPacketEmpty f.pid f.fromNode f.toNode f.fragNum tCreate) := by
    rw [PacketBucket.target, h.wf.lookup_fresh h.aged]
  rw [htarget] at hstate hreq
  refine ⟨⟨s.pb.arrived f tSweep tCreate, tCreate⟩, ?_, ?_, h.wf.arrived f tSweep tCreate,
    h.aged.arrived h.wf (hnow.trans hcreate), h.cuts.trans_eq PacketBucket.arrived_fragSize.symm⟩
  · rw [bucketStep, mapStep, ← hbucket, ← hstate, ← hreq]
  · refine PacketBucket.packets_set (fun pid' => ?_) PacketBucket.arrived_fragSize
      PacketBucket.arrived_maxPktAge
    rw [h.wf.lookup_arrived, h.wf.lookup_fresh h.aged, htarget]

lemma RefinesMap.popPacket (h : RefinesMap s m) {pid size : ℕ} {q : MsgList} {tSweep : ℤ}
    (hnow : s.now ≤ tSweep) :
    ∃ s', bucketStep s (.popPacket pid size q tSweep)
        = .ok (s', (mapStep m (.popPacket pid size q tSweep)).2)
      ∧ RefinesMap s' (mapStep m (.popPacket pid size q tSweep)).1 := by
  obtain rfl := h.packets
  have hlook := congrFun (h.wf.lookup_fresh h.aged tSweep) pid
  have haged : (s.pb.popped pid tSweep).Aged tSweep := by
    rw [PacketBucket.popped]
    split
    · exact (h.aged.fresh h.wf tSweep).mono hnow
    next fp hl =>
      refine ((h.aged.fresh h.wf tSweep).mono hnow).sublist List.erase_sublist
        fun pid' fp' hl' => ?_
      rw [(h.wf.fresh tSweep).lookup_remove] at hl'
      split_ifs at hl'
      exact hl'
  refine ⟨⟨s.pb.popped pid tSweep, tSweep⟩, ?_, ?_, h.wf.popped pid tSweep, haged,
    h.cuts.trans_eq (PacketBucket.popped_fragSize pid).symm⟩
  · rw [bucketStep, mapStep, PacketBucket.popped]
    cases hl : s.pb.packets.live tSweep pid with
    | none =>
        rw [hl] at hlook
        rw [packetBucketPopPacket_none h.wf hlook, hlook]
    | some fp =>
        rw [hl] at hlook
        rw [packetBucketPopPacket_some h.wf hlook, hlook]
  · refine PacketBucket.packets_set (fun pid' => ?_) (PacketBucket.popped_fragSize pid)
      (PacketBucket.popped_maxPktAge pid tSweep)
    rw [h.wf.lookup_popped, h.wf.lookup_fresh h.aged]

lemma RefinesMap.getFragment (h : RefinesMap s m) {pid fid : ℕ} {q : MsgList} {tSweep : ℤ}
    (hnow : s.now ≤ tSweep) :
    ∃ s', bucketStep s (.getFragment pid fid q tSweep)
        = .ok (s', (mapStep m (.getFragment pid fid q tSweep)).2)
      ∧ RefinesMap s' (mapStep m (.getFragment pid fid q tSweep)).1 := by
  obtain rfl := h.packets
  have hlook := h.wf.lookup_fresh h.aged tSweep
  refine ⟨⟨s.pb.fresh tSweep, tSweep⟩, ?_, ?_, h.wf.fresh tSweep,
    (h.aged.fresh h.wf tSweep).mono hnow, h.cuts⟩
  · rw [bucketStep, mapStep, packetBucketGetFragment_eq h.wf, hlook]
  · refine PacketBucket.packets_set (fun pid' => ?_) rfl rfl
    rw [hlook]
    split_ifs with hp
    · rw [hp]
    · rfl

/-- **One call** is the call on the map. -/
lemma RefinesMap.step (h : RefinesMap s m) (op : BucketOp) (hop : op.Allowed s) :
    ∃ s', bucketStep s op = .ok (s', (mapStep m op).2) ∧ RefinesMap s' (mapStep m op).1 := by
  cases op with
  | addPacket src dst pid data q tSweep tCreate =>
      obtain ⟨hnow, hcreate, hfree⟩ := hop
      exact h.addPacket hnow hcreate hfree
  | addFragment f requests q tSweep tCreate => exact h.addFragment hop.1 hop.2
  | popPacket pid size q tSweep => exact h.popPacket hop
  | getFragment pid fid q tSweep => exact h.getFragment hop

end Steps

/-- **A bucket is a map of packets that live for a time.**  In every run the calls answer as on the
map, and afterwards the bucket holds the packets of the map, consistently, and the next sweep leaves
exactly those that are alive. -/
theorem bucket_refines_map (fragSize maxPktAge : ℕ) (hfrag : 1 ≤ fragSize) (now : ℤ)
    (ops : List BucketOp)
    (hallowed : Along bucketStep (fun s op => op.Allowed s)
      ⟨packetBucketCreate fragSize maxPktAge, now⟩ ops) :
    ∃ s, exec bucketStep ⟨packetBucketCreate fragSize maxPktAge, now⟩ ops
        = .ok (s, outputs mapStep ⟨fun _ => none, fragSize, maxPktAge⟩ ops)
      ∧ s.pb.packets = final mapStep ⟨fun _ => none, fragSize, maxPktAge⟩ ops
      ∧ Consistent s.pb ∧ ∀ q t, SweepExact s.pb q t := by
  obtain ⟨s, hexec, h⟩ := exec_simulates (fun _ _ op h hop => h.step op hop)
    (packetBucketCreate_refinesMap hfrag maxPktAge now) hallowed
  exact ⟨s, hexec, h.packets, h.wf.consistent h.aged, fun q t => h.wf.sweepExact h.aged q t⟩

end PeerStreamer
