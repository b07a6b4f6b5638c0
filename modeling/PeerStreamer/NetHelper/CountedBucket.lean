import PeerStreamer.NetHelper.BucketRuns
import PeerStreamer.NetHelper.CountedCalls

/-!
# A bucket whose nodes are counted

The slots of a bucket refer to nodes, and every sweep gives the references of the packets it
destroys back.  As long as the references to one node never reach `2 ^ 16`, a bucket is the map of
packets that it is without the counters (`bucket_counted`); a fragment that announces 65535 slots
brings it about that the nodes are released in its first call (`not_bucket_counted`).
-/

namespace PeerStreamer

/-- What a call does to the counters. -/
def BucketOp.refs (pb : PacketBucket) : BucketOp → List (RefOp NodeID)
  | .addPacket src dst pid data _ tSweep _ =>
      if data.length > 0 then packetBucketAddPacketRefs pb src dst pid data tSweep else []
  | .addFragment f _ _ tSweep tCreate => packetBucketAddFragmentRefs pb f tSweep tCreate
  | .popPacket pid _ _ tSweep => packetBucketPopPacketRefs pb pid tSweep
  | .getFragment _ _ _ tSweep => packetBucketPeriodicRefreshRefs pb tSweep

/-- The nodes a call is passed. -/
def BucketOp.nodes : BucketOp → List NodeID
  | .addPacket src dst _ _ _ _ _ => [src, dst]
  | .addFragment f _ _ _ _ => [f.fromNode, f.toNode]
  | _ => []

/-- The references handed over: those of the requests put on the caller's list. -/
def BucketOp.handed : BucketOp → BucketAnswer → Multiset NodeID
  | .addFragment _ requests _ _ _, .written _ all => queueReferences (all.drop requests.length)
  | _, _ => 0

/-- A bucket as a program that shares nodes. -/
def bucketProgram : SharedProgram ClockedBucket BucketOp BucketAnswer NodeID where
  run := bucketStep
  live s := s.pb.references
  refs s op := op.refs s.pb
  passed := BucketOp.nodes
  created _ := []
  handed _ := BucketOp.handed

/-- One step with counters of 16 bits. -/
abbrev countedBucketStep := bucketProgram.countedStep (2 ^ 16)

/-- A bucket that has just been created, in surroundings without nodes. -/
def startedBucket (fragSize maxPktAge : ℕ) (now : ℤ) :
    WithCounters (Surrounded ClockedBucket NodeID) NodeID :=
  Surrounded.start ⟨packetBucketCreate fragSize maxPktAge, now⟩

lemma startedBucket_counted (fragSize maxPktAge : ℕ) (now : ℤ) :
    bucketProgram.sharing.Counted (2 ^ 16) (startedBucket fragSize maxPktAge now) :=
  SharedProgram.start_counted (by norm_num) rfl

section Steps

variable {s s' : ClockedBucket} {M : Multiset NodeID} {a : BucketAnswer}

/-- **A call** moves the references as its operations on the counters say. -/
lemma RefinesMap.moves {m : PacketMap} (h : RefinesMap s m) {op : BucketOp} (hop : op.Allowed s)
    (hs : bucketStep s op = .ok (s', a)) (hnodes : ∀ n ∈ op.nodes, n ∈ M) :
    Moves (M + s.pb.references) (op.refs s.pb) (M + op.handed a + s'.pb.references) := by
  have hnone : M = M + 0 := (add_zero M).symm
  cases op with
  | addPacket src dst pid data q tSweep tCreate =>
      obtain ⟨-, -, hfree⟩ := hop
      rw [BucketOp.refs]
      split_ifs with hdata
      · have hfree' : (s.pb.fresh tSweep).lookup pid = none := by
          rw [h.wf.lookup_fresh h.aged, hfree]
        rw [bucketStep, packetBucketAddPacket_eq h.wf hdata h.cuts hfree'] at hs
        cases hs
        exact (h.wf.addPacket_moves data tCreate hfree' (hnodes src (by simp [BucketOp.nodes]))
          (hnodes dst (by simp [BucketOp.nodes]))).of_eq rfl (congrArg (· + _) hnone.symm)
      · rw [bucketStep, packetBucketAddPacket, if_neg hdata] at hs
        cases hs
        exact Moves.nil.of_eq rfl (congrArg (· + _) hnone.symm)
  | addFragment f requests q tSweep tCreate =>
      obtain ⟨hbucket, hstate, hreq⟩ :=
        packetBucketAddFragment_fields h.wf f requests q tSweep tCreate
      have hstep : bucketStep s (.addFragment f requests q tSweep tCreate)
          = .ok (⟨s.pb.arrived f tSweep tCreate, tCreate⟩,
            .written (arrivalState (s.pb.target f tSweep tCreate) f)
              (requests ++ arrivalRequests (s.pb.target f tSweep tCreate) f)) := by
        rw [bucketStep, ← hbucket, ← hstate, ← hreq]
      obtain ⟨rfl, rfl⟩ := ok_unique hstep hs
      have hmoves := h.wf.addFragment_moves tSweep tCreate
        (hnodes f.fromNode (by simp [BucketOp.nodes])) (hnodes f.toNode (by simp [BucketOp.nodes]))
      refine hmoves.of_eq rfl ?_
      rw [BucketOp.handed, List.drop_left]
      exact add_right_comm _ _ _
  | popPacket pid size q tSweep =>
      have hpopped : (packetBucketPopPacket s.pb pid size q tSweep).1 = s.pb.popped pid tSweep := by
        rw [PacketBucket.popped]
        cases hl : (s.pb.fresh tSweep).lookup pid with
        | none => rw [packetBucketPopPacket_none h.wf hl]
        | some fp => rw [packetBucketPopPacket_some h.wf hl]
      obtain ⟨rfl, rfl⟩ := Prod.mk.inj (Except.ok.inj hs)
      refine (h.wf.popPacket_moves pid tSweep M).of_eq rfl ?_
      change M + 0 + (packetBucketPopPacket s.pb pid size q tSweep).1.references = _
      rw [add_zero, hpopped]
  | getFragment pid fid q tSweep =>
      obtain ⟨rfl, rfl⟩ := Prod.mk.inj (Except.ok.inj hs)
      refine (h.wf.refresh_moves tSweep M).of_eq rfl ?_
      change M + 0 + (packetBucketGetFragment s.pb pid fid q tSweep).1.references = _
      rw [add_zero, packetBucketGetFragment_eq h.wf]

lemma bucketProgram_respects :
    bucketProgram.Respects (fun s => RefinesMap s s.pb.packets) fun s op => op.Allowed s := by
  intro s op s' a M h hop hs hpassed _
  obtain ⟨s₁, hs₁, h₁⟩ := h.step op hop
  obtain ⟨rfl, -⟩ := ok_unique hs hs₁
  have h' : RefinesMap s' s'.pb.packets := by
    rw [h₁.packets]
    exact h₁
  exact ⟨h', h.moves hop hs hpassed⟩

end Steps

/-! ## Every run -/

/-- Whatever has happened to a new bucket, its calls have answered as on the map; afterwards it
holds the packets of the map, consistently, and the next sweep leaves exactly those alive. -/
def BucketIsMap (fragSize maxPktAge : ℕ) (now : ℤ) (is : List (Happening BucketOp NodeID)) : Prop :=
  ∃ s outs, exec countedBucketStep (startedBucket fragSize maxPktAge now) is = .ok (s, outs)
    ∧ outs.reduceOption = outputs mapStep ⟨fun _ => none, fragSize, maxPktAge⟩ (Happening.calls is)
    ∧ s.state.program.pb.packets
      = final mapStep ⟨fun _ => none, fragSize, maxPktAge⟩ (Happening.calls is)
    ∧ Consistent s.state.program.pb ∧ ∀ q t, SweepExact s.state.program.pb q t

/-- **A bucket is a map of packets that live for a time**, in every run in which the references to
one node never reach `2 ^ 16`. -/
theorem bucket_counted (fragSize maxPktAge : ℕ) (hfrag : 1 ≤ fragSize) (now : ℤ)
    (is : List (Happening BucketOp NodeID))
    (hcareful : Along countedBucketStep
      (fun s i => bucketProgram.Careful (2 ^ 16) s i
        ∧ SharedProgram.OnCalls (fun s op => op.Allowed s) s.state i)
      (startedBucket fragSize maxPktAge now) is) :
    BucketIsMap fragSize maxPktAge now is := by
  have hstart := packetBucketCreate_refinesMap hfrag maxPktAge now
  obtain ⟨s, outs, hexec, hmap, -⟩ := bucketProgram_respects.carries
    (s := startedBucket fragSize maxPktAge now) hstart
    (startedBucket_counted fragSize maxPktAge now) hcareful
    (Q := fun s answers => answers
          = outputs mapStep ⟨fun _ => none, fragSize, maxPktAge⟩ (Happening.calls is)
      ∧ s.pb.packets = final mapStep ⟨fun _ => none, fragSize, maxPktAge⟩ (Happening.calls is)
      ∧ Consistent s.pb ∧ ∀ q t, SweepExact s.pb q t) fun hallowed => by
      obtain ⟨s, hexec, hrest⟩ :=
        bucket_refines_map fragSize maxPktAge hfrag now (Happening.calls is) hallowed
      exact ⟨s, _, hexec, rfl, hrest⟩
  exact ⟨s, outs, hexec, hmap⟩

/-- A packet is added, a fragment of another one arrives, and the first has expired when it is
popped. -/
theorem bucket_counted_expiring :
    BucketIsMap 2 10 0
      [.other (.create ⟨[65], 6000, 3⟩), .other (.create ⟨[66], 6001, -1⟩),
        .call (.addPacket ⟨[65], 6000, 3⟩ ⟨[66], 6001, -1⟩ 4 [1, 2, 3] [] 0 1),
        .call (.addFragment (byteFragment 2 1) [] [] 5 5), .call (.popPacket 4 10 [] 11),
        .call (.getFragment 7 2 [] 12)] :=
  bucket_counted 2 10 (by decide) 0 _ (by decide)

/-- A fragment that announces 65535 slots is the first call. -/
theorem not_bucket_counted :
    ¬ ∀ (fragSize maxPktAge : ℕ) (now : ℤ) (is : List (Happening BucketOp NodeID)),
      1 ≤ fragSize → 1 ≤ maxPktAge →
      Along countedBucketStep
        (fun s i => bucketProgram.Allowed s.state i
          ∧ SharedProgram.OnCalls (fun s op => op.Allowed s) s.state i)
        (startedBucket fragSize maxPktAge now) is →
      BucketIsMap fragSize maxPktAge now is := by
  intro hall
  obtain ⟨halong, c, outs, hexec, hcounts⟩ := SharedProgram.exec_others
    (P := fun (s : ClockedBucket) (op : BucketOp) => op.Allowed s)
    (startedBucket_counted 1024 10 0) rfl beforeArrival_moves beforeArrival_fits
  have hallowed : bucketProgram.Allowed ⟨⟨packetBucketCreate 1024 10, 0⟩, heldBefore⟩
      (.call (.addFragment manySlots [] [] 0 0)) := by
    decide
  have hclock : (BucketOp.addFragment manySlots [] [] 0 0).Allowed
      ⟨packetBucketCreate 1024 10, 0⟩ := by
    decide
  obtain ⟨s, outs₁, hexec₁, -⟩ := hall 1024 10 0 _ (by decide) (by decide)
    (along_concat (a := Happening.call (BucketOp.addFragment manySlots [] [] 0 0))
      (halong.mono fun _ _ h => ⟨h.1.1, h.2⟩) hexec ⟨hallowed, hclock⟩)
  have hcount := SharedProgram.counted_last_call hexec hexec₁
  obtain ⟨rest, hrefs⟩ :=
    packetBucketAddFragment_first_refs 1024 10 (f := manySlots) (by decide) 0 0
  obtain ⟨-, hcto⟩ := count_slots (a := manySlots.fromNode) (b := manySlots.toNode) (by decide)
    manySlots.fragNum
  have hheld : manySlots.fromNode ∈ heldBefore ∧ manySlots.toNode ∈ heldBefore := by decide
  have hoverflow := hcounts.overflow (l := (List.range manySlots.fragNum).flatMap fun _ =>
      [manySlots.toNode, manySlots.fromNode])
    (fun n hn => (mem_slots n hn).elim (fun he => he ▸ hheld.1) fun he => he ▸ hheld.2)
    (by decide) hheld.1 hheld.2 (by rw [hcto]; decide) rest
  rw [← hrefs] at hoverflow
  cases hcount.symm.trans hoverflow

end PeerStreamer
