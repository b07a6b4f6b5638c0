import PeerStreamer.NetHelper.Reassembly

/-!
# Reassembly, with the references counted

The results about reassembly leave the counters of the receiver's nodes out.  With them it is so in
every run in which the references to one node never reach `2 ^ 16` (`reassembly_counted`), and not
in all others: the first fragment of a packet of 65533 fragments makes the receiver use a node it
has released, when its surroundings keep three references to that node (`not_reassembly`).
-/

namespace PeerStreamer

section Counted

variable {ι : Type} {receiver : NodeID} (ic : IntCoding) (senders : ι → Sender receiver)

/-- The receiver as a program that shares nodes: every arrival is passed the local node and the one
that stands for the sender. -/
def receiverProgram : SharedProgram NetworkManager (Arrival senders) (Option Receipt) NodeID where
  run := receive ic senders
  live := NetworkManager.references
  refs nm a := receiveDatagramRefs ic receiver a.remote nm
    (fragmentDatagram ic (senders a.sender).fragSize a.fragment) a.tSweep a.tCreate a.size a.tPop
  passed a := [receiver, a.remote]
  created _ := []
  handed _ _ _ := 0

/-- One step with counters of 16 bits. -/
abbrev countedReceive := (receiverProgram ic senders).countedStep (2 ^ 16)

/-- A receiver that has just been started, in surroundings without nodes. -/
abbrev startedReceiver (config : NetworkConfig) :
    WithCounters (Surrounded NetworkManager NodeID) NodeID :=
  Surrounded.start (networkManagerCreate config)

/-- Every arrival is answered as by `reassemble`: ready, and with the packet that was sent, when it
completes the ids received since the packet was last popped, and loading otherwise. -/
def Reassembled [DecidableEq ι] (config : NetworkConfig)
    (is : List (Happening (Arrival senders) NodeID)) : Prop :=
  ∃ s outs, exec (countedReceive ic senders) (startedReceiver config) is = .ok (s, outs)
    ∧ outs.reduceOption = outputs (reassemble senders) (fun _ => ∅) (Happening.calls is)

variable {ic senders}

lemma receiverProgram_respects :
    (receiverProgram ic senders).Respects NetworkManager.OutqueueInv (NoneExpires senders) := by
  intro nm a nm' receipt M hinv _ hs hpassed _
  obtain ⟨hmoves, hinv'⟩ := hinv.receiveDatagram_moves
    (hpassed receiver List.mem_cons_self) (hpassed a.remote (by simp [receiverProgram])) hs
  exact ⟨hinv', hmoves.of_eq rfl (congrArg (· + _) (add_zero M))⟩

/-- **End-to-end reassembly**, in every run in which the references to one node never reach
`2 ^ 16`.  For any senders with different addresses, and any arrivals of fragments they have popped,
in any order and with any repetitions, none of them after a packet has reached its age: the run goes
through, and every arrival is answered as by `reassemble`. -/
theorem reassembly_counted [DecidableEq ι] (ic : IntCoding) (hic : ic.Inverse (2 ^ 31))
    (senders : ι → Sender receiver)
    (hdist : ∀ s s', nodeidEqual (senders s).node (senders s').node → s = s')
    (config : NetworkConfig) (is : List (Happening (Arrival senders) NodeID))
    (hcareful : Along (countedReceive ic senders)
      (fun s i => (receiverProgram ic senders).Careful (2 ^ 16) s i
        ∧ SharedProgram.OnCalls (NoneExpires senders) s.state i) (startedReceiver config) is) :
    Reassembled ic senders config is := by
  obtain ⟨s, outs, hexec, hanswers, -⟩ := receiverProgram_respects.carries
    (s := startedReceiver config) (networkManagerCreate_outqueueInv config)
    (SharedProgram.start_counted (by norm_num) rfl) hcareful
    (Q := fun _ answers => answers
      = outputs (reassemble senders) (fun _ => ∅) (Happening.calls is)) fun hnone => by
      obtain ⟨nm, hexec⟩ := reassembly ic hic senders hdist config (Happening.calls is) hnone
      exact ⟨nm, _, hexec, rfl⟩
  exact ⟨s, outs, hexec, hanswers⟩

end Counted

/-- A sender of one packet of two fragments, of which both have been popped. -/
def twoFragmentSender : Sender ⟨[65], 6000, 3⟩ where
  node := ⟨[66], 6001, -1⟩
  config := twoByteFragments
  happened := [.other (.create ⟨[66], 6001, 3⟩), .other (.create ⟨[65], 6000, -1⟩),
    .call (.enqueuePacket ⟨[66], 6001, 3⟩ ⟨[65], 6000, -1⟩ [1, 2, 3] 0 0), .call .popMsg,
    .call .popMsg]
  state := _
  outs := [none, none, some (.code 0),
    some (.message (some (.fragment
      ⟨⟨⟨[66], 6001, 3⟩, ⟨[65], 6000, -1⟩, false⟩, 0, 2, 0, some [1, 2]⟩))),
    some (.message (some (.fragment
      ⟨⟨⟨[66], 6001, 3⟩, ⟨[65], 6000, -1⟩, false⟩, 1, 2, 0, some [3]⟩)))]
  run := rfl
  careful := by decide
  fragSize_pos := by decide
  distinct := by decide
  countable := by decide

/-- The second fragment arrives twice, and then the first, each at a node of its own. -/
def outOfOrder : List (Happening (Arrival fun _ : Unit => twoFragmentSender) NodeID) :=
  [.other (.create ⟨[65], 6000, 3⟩), .other (.create ⟨[66], 6001, -1⟩),
    .call ⟨(), -1, ⟨⟨⟨[66], 6001, 3⟩, ⟨[65], 6000, -1⟩, false⟩, 1, 2, 0, some [3]⟩, by decide, 4,
      by decide, 5, 5, 5⟩,
    .other (.create ⟨[66], 6001, -2⟩), .other (.free ⟨[66], 6001, -1⟩),
    .call ⟨(), -2, ⟨⟨⟨[66], 6001, 3⟩, ⟨[65], 6000, -1⟩, false⟩, 1, 2, 0, some [3]⟩, by decide, 4,
      by decide, 6, 6, 6⟩,
    .call ⟨(), -2, ⟨⟨⟨[66], 6001, 3⟩, ⟨[65], 6000, -1⟩, false⟩, 0, 2, 0, some [1, 2]⟩, by decide,
      4, by decide, 7, 7, 7⟩]

theorem reassembly_counted_outOfOrder :
    Reassembled bigEndian (fun _ : Unit => twoFragmentSender) ⟨none, none⟩ outOfOrder :=
  reassembly_counted bigEndian (bigEndian_inverse.mono (by decide))
    (fun _ : Unit => twoFragmentSender) (fun _ _ _ => rfl) _ _ (by decide)

example : outputs (reassemble fun _ : Unit => twoFragmentSender) (fun _ => ∅)
    (Happening.calls outOfOrder)
      = [some ⟨.loading, none⟩, some ⟨.loading, none⟩, some ⟨.ready, some (0, [1, 2, 3], 3)⟩] := by
  decide

/-! ## A long packet -/

/-- The two nodes are made, the packet is enqueued, and its first fragment is popped. -/
def longPacketRun (data : Bytes) : List ManagerHappening :=
  [.create ⟨[66], 6001, 3⟩, .create ⟨[65], 6000, -1⟩].map .other
    ++ [.enqueuePacket ⟨[66], 6001, 3⟩ ⟨[65], 6000, -1⟩ data 0 0, .popMsg].map .call

lemma longPacketRun_calls (data : Bytes) : Happening.calls (longPacketRun data)
    = [.enqueuePacket ⟨[66], 6001, 3⟩ ⟨[65], 6000, -1⟩ data 0 0, .popMsg] := rfl

lemma longPacketRun_payloads {data : Bytes} (hdata : data.length = 65533) :
    payloads localPeer (Happening.calls (longPacketRun data)) = [data] := by
  rw [longPacketRun_calls]
  simp [payloads, NmOp.payloadTo, hdata, localPeer, nodeidEqual, nodeidCmp, strcmp]

/-- The references of the sender fit. -/
lemma longPacketRun_careful {data : Bytes} (hdata : data.length = 65533) :
    Along countedCall (managerProgram.Careful (2 ^ 16)) (startedManager oneByteFragments)
      (longPacketRun data) := by
  rw [longPacketRun]
  set src : NodeID := ⟨[66], 6001, 3⟩
  set dst : NodeID := ⟨[65], 6000, -1⟩
  have hcreate : Moves 0 [.create src, .create dst] ({dst, src} : Multiset NodeID) :=
    ⟨by decide, by decide, rfl⟩
  obtain ⟨halong, c, outs, hpre, -⟩ := SharedProgram.exec_others (P := fun _ _ => True)
    (startedManager_counted oneByteFragments) rfl hcreate (fits_of_card (by decide))
  have hfits : managerProgram.sharing.Fits (2 ^ 16)
      ⟨networkManagerCreate oneByteFragments, ({dst, src} : Multiset NodeID)⟩
      (.call (.enqueuePacket src dst data 0 0)) := by
    change Fits (2 ^ 16) (({dst, src} : Multiset NodeID)
      + (networkManagerCreate oneByteFragments).references)
      (NmOp.refs (networkManagerCreate oneByteFragments) (.enqueuePacket src dst data 0 0))
    have hnone : (networkManagerCreate oneByteFragments).references = 0 := rfl
    rw [hnone, add_zero]
    exact longPacket_fits (by decide) hdata
  refine along_append.mpr ⟨halong.mono fun _ _ => And.left, fun s₁ outs₁ hexec₁ => ?_⟩
  obtain ⟨rfl, -⟩ := ok_unique hpre hexec₁
  exact ⟨⟨⟨by simp [managerProgram, NmOp.nodes], by simp [managerProgram]⟩, hfits⟩, fun s₂ b _ =>
    ⟨⟨⟨by simp [managerProgram, NmOp.nodes], by simp [managerProgram]⟩, trivial⟩,
      fun _ _ _ => trivial⟩⟩

/-- **A sender of a long packet**, one of as many fragments as its counters can count. -/
lemma exists_longSender (data : Bytes) (hdata : data.length = 65533) :
    ∃ s : Sender localPeer, s.node = ⟨[66], 6001, -1⟩ ∧ ∃ f, s.Popped f ∧ f.fragNum = 65533 := by
  obtain ⟨nm, f, hexec, hto⟩ := exec_first_pop ⟨[66], 6001, 3⟩ ⟨[65], 6000, -1⟩ data (by omega)
    (by omega)
  have hcareful := longPacketRun_careful hdata
  have hpayloads := longPacketRun_payloads hdata
  obtain ⟨s, outs, hrun, hanswers, -⟩ := managerProgram_respects.carries
    (s := startedManager oneByteFragments) (networkManagerCreate_outqueueInv oneByteFragments)
    (startedManager_counted oneByteFragments)
    (hcareful.mono fun s i hi => ⟨hi, by cases i <;> trivial⟩)
    (Q := fun _ answers => answers = [.code 0, .message (some (.fragment f))])
    fun _ => ⟨nm, _, hexec, rfl⟩
  let sender : Sender localPeer :=
    { node := ⟨[66], 6001, -1⟩
      config := oneByteFragments
      happened := longPacketRun data
      state := s
      outs := outs
      run := hrun
      careful := hcareful
      fragSize_pos := oneByteFragments_fragSize
      distinct := (List.countP_le_length).trans (by rw [longPacketRun_calls]; simp)
      countable := by
        rw [hpayloads]
        intro d hd
        obtain rfl := List.mem_singleton.mp hd
        rw [hdata]
        decide }
  have hpopped : sender.Popped f := by
    refine ⟨?_, hto⟩
    rw [Sender.answers, hanswers]
    exact List.mem_cons_of_mem _ List.mem_cons_self
  refine ⟨sender, rfl, f, hpopped, ?_⟩
  obtain ⟨d, hd, hpiece⟩ := hpopped.sentPiece
  have hd' : d ∈ [data] := by
    rw [← hpayloads]
    exact List.mem_of_getElem? hd
  obtain rfl := List.mem_singleton.mp hd'
  have hone : (networkManagerCreate oneByteFragments).fragSize = 1 := by decide
  have hnum : f.fragNum = cutCount d.length 1 := hpiece.fragNum
  rw [hnum, hdata]
  decide

/-- The first fragment of all to arrive finds no packet that has reached its age. -/
lemma noneExpires_first {receiver : NodeID} (config : NetworkConfig)
    {senders : Unit → Sender receiver} (a : Arrival senders)
    (hage : a.tPop < a.tCreate + (networkManagerCreate config).maxPktAge) :
    NoneExpires senders (networkManagerCreate config) a := by
  have hinv := networkManagerCreate_outqueueInv config
  have hend := NetworkManager.endpointFor_of_none (networkManagerCreate_endpoint config a.remote)
  refine ⟨by rw [hend]; rfl, ?_⟩
  have hwf := (hinv.wf.endpointFor_wf a.remote).incoming
  rw [hinv.addFragment, hinv.wf.incoming_arrived, Arrival.received_fromNode,
    if_pos (nodeidEqual_self _)]
  have hsince : ((networkManagerCreate config).endpointFor a.remote).incoming.arrived a.received
      a.tSweep a.tCreate |>.Since a.tCreate := by
    intro pid fp hl
    rw [hwf.lookup_arrived, hend] at hl
    split_ifs at hl
    · obtain rfl := Option.some.inj hl
      exact le_rfl
    · cases hl
  refine hsince.swept (hage.trans_eq ?_)
  rw [PacketBucket.arrived_maxPktAge, hend]
  rfl

/-- The arrival of a fragment at a new node, with a buffer one byte larger than its packet. -/
def firstArrival {receiver : NodeID} {s : Sender receiver} {f : Fragment} (h : s.Popped f) :
    Arrival fun _ : Unit => s :=
  ⟨(), -1, f, h, (s.packet f.pid).length + 1, Nat.lt_succ_self _, 0, 0, 0⟩

/-- The first fragment of a packet of 65533 bytes, each in a fragment of its own, arrives at a node
to which there are three references. -/
theorem not_reassembly :
    ¬ ∀ (ic : IntCoding) (receiver : NodeID) (senders : Unit → Sender receiver)
      (config : NetworkConfig) (is : List (Happening (Arrival senders) NodeID)),
      ic.Inverse (2 ^ 32) →
      Along (countedReceive ic senders) (fun s i => (receiverProgram ic senders).Allowed s.state i
        ∧ SharedProgram.OnCalls (NoneExpires senders) s.state i) (startedReceiver config) is →
      Reassembled ic senders config is := by
  intro hall
  obtain ⟨sender, hnode, f, hpopped, hnum⟩ :=
    exists_longSender (List.replicate 65533 0) List.length_replicate
  set a := firstArrival hpopped with ha
  have hremote : a.remote = ⟨[66], 6001, -1⟩ := by
    change ({ sender.node with fd := -1 } : NodeID) = _
    rw [hnode]
  have hmoves : Moves 0 [.create localPeer, .dup localPeer, .dup localPeer, .create a.remote]
      ({a.remote, localPeer, localPeer, localPeer} : Multiset NodeID) := by
    rw [hremote]
    exact ⟨by decide, by decide, by decide, by decide, rfl⟩
  have hfits : Fits (2 ^ 16) 0
      [.create localPeer, .dup localPeer, .dup localPeer, .create a.remote] :=
    fits_of_card (by simp)
  obtain ⟨halong, c, outs, hpre, hcounts⟩ := SharedProgram.exec_others
    (p := receiverProgram bigEndian fun _ => sender) (P := NoneExpires fun _ => sender)
    (s := startedReceiver ⟨none, none⟩) (SharedProgram.start_counted (by norm_num) rfl) rfl hmoves
    hfits
  have hage : a.tPop < a.tCreate + (networkManagerCreate ⟨none, none⟩).maxPktAge := by
    change (0 : ℤ) < 0 + ((networkManagerCreate ⟨none, none⟩).maxPktAge : ℤ)
    decide
  have hallowed : (receiverProgram bigEndian fun _ => sender).Allowed
      ⟨networkManagerCreate ⟨none, none⟩, {a.remote, localPeer, localPeer, localPeer}⟩ (.call a) :=
    ⟨by simp [receiverProgram], by simp [receiverProgram]⟩
  obtain ⟨s, outs₁, hexec, -⟩ := hall bigEndian localPeer (fun _ => sender) ⟨none, none⟩ _
    bigEndian_inverse (along_concat (a := Happening.call a)
      (halong.mono fun _ _ h => ⟨h.1.1, h.2⟩) hpre ⟨hallowed, noneExpires_first _ a hage⟩)
  have hcount := SharedProgram.counted_last_call hpre hexec
  have hdecode : netMsgDecode bigEndian localPeer a.remote
      (fragmentDatagram bigEndian sender.fragSize f) = .ok (some (.fragment a.received)) :=
    hpopped.decode (bigEndian_inverse.mono (by decide)) _
  have hid : a.received.id < a.received.fragNum := hpopped.pieceOf.id
  have hround : (({a.remote, localPeer, localPeer, localPeer} : Multiset NodeID).count localPeer + 1
      + a.received.fragNum) % 2 ^ 16 = 1 := by
    have hcount : a.received.fragNum = 65533 := hnum
    rw [hcount, hremote]
    decide
  have hoverflow := fun pop => datagramRefs_overflow ⟨none, none⟩ hdecode hid
    (by rw [hremote]; decide) hcounts (by simp) (by simp) (by simp) hround 0 0 pop
  cases hcount.symm.trans (hoverflow _)

end PeerStreamer
