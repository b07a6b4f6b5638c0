import PeerStreamer.Foundation.RefCount
import PeerStreamer.NetHelper.Runs

/-!
# References to nodes

Every `struct net_msg` keeps a pointer to the two nodes it goes between, and every endpoint one to
its node; `nodeid_dup` and `nodeid_free` count them.  For each structure there is the multiset of
the references it keeps, and for each function of the sources the operations on the counters it
makes, in its order (`…Refs`).  The result about a function is that these operations may be made,
and turn the references before it into the ones after it (`Moves`).

Counting is about objects, so a `NodeID` is an object here and not just an address: two objects with
the same address are told apart by `fd`, at which the network manager never looks.
-/

namespace PeerStreamer

/-! ## The structures -/

/-- The references of a message. -/
def NetMsg.references (msg : NetMsg) : Multiset NodeID := {msg.toNode, msg.fromNode}

/-- The references of an element of a list: a fragment is owned by its packet, not by the list. -/
def QueueElem.references : QueueElem → Multiset NodeID
  | .fragment _ _ _ => 0
  | .request r => r.toNetMsg.references

/-- The references of a list of messages. -/
def queueReferences (q : MsgList) : Multiset NodeID := (q.map QueueElem.references).sum

def FragmentedPacket.references (fp : FragmentedPacket) : Multiset NodeID :=
  (fp.frags.map fun f => f.toNetMsg.references).sum

def PacketBucket.references (pb : PacketBucket) : Multiset NodeID :=
  (pb.packetSet.elements.map FragmentedPacket.references).sum

def Endpoint.references (e : Endpoint) : Multiset NodeID :=
  {e.node} + e.incoming.references + e.outgoing.references

def NetworkManager.references (nm : NetworkManager) : Multiset NodeID :=
  (nm.endpoints.elements.map Endpoint.references).sum + queueReferences nm.outqueue

/-! ## Operations on the counters -/

/-- `net_msg_init` -/
def netMsgInitRefs (msg : NetMsg) : List (RefOp NodeID) := [.dup msg.toNode, .dup msg.fromNode]

/-- `net_msg_deinit` -/
def netMsgDeinitRefs (msg : NetMsg) : List (RefOp NodeID) := [.free msg.fromNode, .free msg.toNode]

/-- `frag_request_create`, for the requests of a list. -/
def QueueElem.initRefs : QueueElem → List (RefOp NodeID)
  | .fragment _ _ _ => []
  | .request r => netMsgInitRefs r.toNetMsg

/-- `fragmented_packet_create` and `fragmented_packet_empty`, for the packet they make. -/
def fragmentedPacketInitRefs (fp : FragmentedPacket) : List (RefOp NodeID) :=
  fp.frags.flatMap fun f => netMsgInitRefs f.toNetMsg

/-- `fragmented_packet_destroy` -/
def fragmentedPacketDestroyRefs (fp : FragmentedPacket) : List (RefOp NodeID) :=
  fp.frags.flatMap fun f => netMsgDeinitRefs f.toNetMsg

/-- `fragmented_packet_write_fragment`: the slot is deinitialised and initialised again, and then
the requests are made. -/
def fragmentedPacketWriteFragmentRefs (fp : FragmentedPacket) (f : Fragment) :
    List (RefOp NodeID) :=
  match fp.frags[f.id]? with
  | none => []
  | some nf =>
      netMsgDeinitRefs nf.toNetMsg ++ netMsgInitRefs f.toNetMsg
        ++ (fragmentedPacketState (fp.put f) f.fromNode f.toNode []).2.flatMap QueueElem.initRefs

/-- The loop of `packet_bucket_periodic_refresh`. -/
def packetBucketRefreshLoopRefs (currentTime : ℤ) :
    List ℕ → PacketBucket → List (RefOp NodeID)
  | [], _ => []
  | pos :: tmp, pb =>
      match pb.lookup pos with
      | none => []
      | some fp =>
          if currentTime - fp.creationTimestamp ≥ pb.maxPktAge then
            fragmentedPacketDestroyRefs fp
              ++ packetBucketRefreshLoopRefs currentTime tmp (pb.remove fp)
          else []

/-- `packet_bucket_periodic_refresh` -/
def packetBucketPeriodicRefreshRefs (pb : PacketBucket) (currentTime : ℤ) : List (RefOp NodeID) :=
  packetBucketRefreshLoopRefs currentTime pb.packetList pb

/-- `packet_bucket_add_packet` -/
def packetBucketAddPacketRefs (pb : PacketBucket) (src dst : NodeID) (pid : ℕ) (data : Bytes)
    (tSweep : ℤ) : List (RefOp NodeID) :=
  packetBucketPeriodicRefreshRefs pb tSweep
    ++ (cutFragments src dst pid data pb.fragSize).flatMap fun f => netMsgInitRefs f.toNetMsg

/-- `packet_bucket_add_fragment` -/
def packetBucketAddFragmentRefs (pb : PacketBucket) (f : Fragment) (tSweep tCreate : ℤ) :
    List (RefOp NodeID) :=
  packetBucketPeriodicRefreshRefs pb tSweep
    ++ match (packetBucketPeriodicRefresh pb [] tSweep).1.lookup f.pid with
      | some fp => fragmentedPacketWriteFragmentRefs fp f
      | none =>
          let fp := fragmentedPacketEmpty f.pid f.fromNode f.toNode f.fragNum tCreate
          fragmentedPacketInitRefs fp ++ fragmentedPacketWriteFragmentRefs fp f

/-- `packet_bucket_pop_packet` -/
def packetBucketPopPacketRefs (pb : PacketBucket) (pid : ℕ) (tSweep : ℤ) : List (RefOp NodeID) :=
  packetBucketPeriodicRefreshRefs pb tSweep
    ++ match (packetBucketPeriodicRefresh pb [] tSweep).1.lookup pid with
      | none => []
      | some fp => fragmentedPacketDestroyRefs fp

/-- The lookup that creates the endpoint if the node has none: `endpoint_create`. -/
def NetworkManager.obtainEndpointRefs (nm : NetworkManager) (node : NodeID) :
    List (RefOp NodeID) :=
  match nm.endpoint node with
  | some _ => []
  | none => [.dup node]

/-- A call to the network manager. -/
def NmOp.refs (nm : NetworkManager) : NmOp → List (RefOp NodeID)
  | .enqueuePacket src dst data tSweep _ =>
      if data.length > 0 then
        let e := (nm.obtainEndpoint dst).2
        nm.obtainEndpointRefs dst
          ++ packetBucketAddPacketRefs e.outgoing src e.node e.outId data tSweep
      else []
  | .popMsg => []
  | .enqueueFragment dst _ _ tSweep =>
      match nm.endpoint dst with
      | none => []
      | some e => packetBucketPeriodicRefreshRefs e.outgoing tSweep
  | .addFragment f tSweep tCreate =>
      nm.obtainEndpointRefs f.fromNode
        ++ packetBucketAddFragmentRefs (nm.obtainEndpoint f.fromNode).2.incoming f tSweep tCreate
  | .popPacket src pid _ tSweep =>
      match nm.endpoint src with
      | none => []
      | some e => packetBucketPopPacketRefs e.incoming pid tSweep

/-- The nodes a caller passes to a call. -/
def NmOp.nodes : NmOp → List NodeID
  | .enqueuePacket src dst _ _ _ => [src, dst]
  | .popMsg => []
  | .enqueueFragment dst _ _ _ => [dst]
  | .addFragment f _ _ => [f.fromNode, f.toNode]
  | .popPacket src _ _ _ => [src]

/-- The messages a call hands over to its caller: a request belongs to whoever has taken it off the
queue, a fragment still to its packet. -/
def NmAnswer.handed : NmAnswer → List NetMessage
  | .message (some (.fragRequest r)) => [.fragRequest r]
  | _ => []

/-- The references of messages outside of the network manager. -/
def messageReferences (messages : List NetMessage) : Multiset NodeID :=
  (messages.map fun msg => msg.netMsg.references).sum

/-! ## Messages -/

section Messages

variable {M : Multiset NodeID}

lemma NetMsg.add_references (msg : NetMsg) (M : Multiset NodeID) :
    M + msg.references = msg.fromNode ::ₘ msg.toNode ::ₘ M := by
  rw [references, Multiset.insert_eq_cons, ← Multiset.singleton_add, ← Multiset.singleton_add,
    ← Multiset.singleton_add]
  abel

lemma netMsgInit_moves {msg : NetMsg} (hfrom : msg.fromNode ∈ M) (hto : msg.toNode ∈ M) :
    Moves M (netMsgInitRefs msg) (M + msg.references) := by
  rw [msg.add_references]
  exact (Moves.dup hto).append (Moves.dup (Multiset.mem_cons_of_mem hfrom))

lemma netMsgDeinit_moves (msg : NetMsg) (M : Multiset NodeID) :
    Moves (M + msg.references) (netMsgDeinitRefs msg) M := by
  rw [msg.add_references]
  exact Moves.free.append Moves.free

/-! ## Packets -/

/-- Making a packet between two nodes that are alive. -/
lemma fragmentedPacketInit_moves {fp : FragmentedPacket}
    (h : ∀ f ∈ fp.frags, f.fromNode ∈ M ∧ f.toNode ∈ M) :
    Moves M (fragmentedPacketInitRefs fp) (M + fp.references) :=
  Moves.flatMap_take fun f hf _ hM =>
    netMsgInit_moves (Multiset.mem_of_le hM (h f hf).1) (Multiset.mem_of_le hM (h f hf).2)

lemma fragmentedPacketDestroy_moves (fp : FragmentedPacket) (M : Multiset NodeID) :
    Moves (M + fp.references) (fragmentedPacketDestroyRefs fp) M :=
  Moves.flatMap_drop (fun f => netMsgDeinit_moves f.toNetMsg) fp.frags

/-- The requests go between the nodes of the fragment that causes them. -/
lemma mem_arrivalRequests {fp : FragmentedPacket} {f : Fragment} {el : QueueElem}
    (hel : el ∈ arrivalRequests fp f) :
    ∃ r : FragRequest, el = .request r ∧ r.fromNode = f.fromNode ∧ r.toNode = f.toNode := by
  obtain ⟨i, -, rfl⟩ := List.mem_map.mp hel
  exact ⟨_, rfl, rfl, rfl⟩

/-- Writing a fragment exchanges the references of its slot and takes those of the requests. -/
lemma fragmentedPacketWriteFragment_moves (fp : FragmentedPacket) {f : Fragment}
    (hfrom : f.fromNode ∈ M) (hto : f.toNode ∈ M) :
    Moves (M + fp.references) (fragmentedPacketWriteFragmentRefs fp f)
      (M + (fp.put f).references + queueReferences (arrivalRequests fp f)) := by
  rw [fragmentedPacketWriteFragmentRefs]
  cases hslot : fp.frags[f.id]? with
  | none =>
      have hge : fp.fragNum ≤ f.id := List.getElem?_eq_none_iff.mp hslot
      rw [FragmentedPacket.put_of_ge hge, arrivalRequests, missingIds, if_neg (by omega)]
      simp [queueReferences, Moves]
  | some nf =>
      have hlt : f.id < fp.fragNum := (List.getElem?_eq_some_iff.mp hslot).1
      have hrequests : (fragmentedPacketState (fp.put f) f.fromNode f.toNode []).2
          = arrivalRequests fp f := by
        rw [fragmentedPacketState_eq, arrivalRequests, missingIds, if_pos hlt]
        rfl
      obtain ⟨rest, hsum, hset⟩ := sum_map_set (fun f : Fragment => f.toNetMsg.references) hslot
      have hput : (fp.put f).references = f.toNetMsg.references + rest := hset _
      have hfp : fp.references = nf.toNetMsg.references + rest := hsum
      rw [hfp, hput, hrequests, add_comm nf.toNetMsg.references, add_comm f.toNetMsg.references,
        ← add_assoc, ← add_assoc]
      have hinit : Moves (M + rest) (netMsgInitRefs f.toNetMsg)
          (M + rest + f.toNetMsg.references) :=
        netMsgInit_moves (Multiset.mem_add.mpr (Or.inl hfrom)) (Multiset.mem_add.mpr (Or.inl hto))
      refine ((netMsgDeinit_moves nf.toNetMsg _).append hinit).append ?_
      refine Moves.flatMap_take fun el hel M' hM' => ?_
      obtain ⟨r, rfl, hrf, hrt⟩ := mem_arrivalRequests hel
      have hM : M ≤ M' := (Multiset.le_add_right M _).trans ((Multiset.le_add_right _ _).trans hM')
      exact netMsgInit_moves (hrf ▸ Multiset.mem_of_le hM hfrom) (hrt ▸ Multiset.mem_of_le hM hto)

end Messages

/-! ## Buckets -/

namespace PacketBucket

variable {pb : PacketBucket} {fp : FragmentedPacket} {pid : ℕ} {M : Multiset NodeID}

lemma Wf.references_insert (h : pb.Wf) (hnew : pb.lookup fp.packetId = none) :
    (pb.insert fp).references = fp.references + pb.references :=
  sum_ordSetInsert _ packetCmp_lawful h.sorted (by rwa [h.find_eq_lookup])

/-- A stored packet is one summand: a removal takes it away, and a store exchanges it. -/
lemma Wf.references_lookup (h : pb.Wf) (hl : pb.lookup pid = some fp) :
    ∃ rest, pb.references = fp.references + rest ∧ (pb.remove fp).references = rest
      ∧ ∀ fp' : FragmentedPacket, fp'.packetId = pid →
        (pb.store fp').references = fp'.references + rest := by
  obtain ⟨rest, hsum, hrest⟩ := sum_ordSetFind FragmentedPacket.references packetCmp_lawful h.sorted
    hl
  refine ⟨rest, hsum, (hrest fp ?_).1, fun fp' hid => (hrest fp' ?_).2⟩
  · rw [packetCmp_eq_zero]
    exact h.packetId_of_lookup hl
  · rw [packetCmp_eq_zero]
    exact hid

/-- **The sweep** gives back the references of the packets it destroys. -/
lemma Wf.refreshLoop_moves (h : pb.Wf) (t : ℤ) (l : List ℕ) (q : MsgList) (M : Multiset NodeID) :
    Moves (M + pb.references) (packetBucketRefreshLoopRefs t l pb)
      (M + (packetBucketRefreshLoop t l pb q).1.references) := by
  induction l generalizing pb q with
  | nil => exact Moves.nil
  | cons pos tmp ih =>
      rw [packetBucketRefreshLoopRefs, packetBucketRefreshLoop]
      cases hl : pb.lookup pos with
      | none => exact Moves.nil
      | some fp =>
          simp only
          split_ifs with hage
          · obtain ⟨rest, hsum, hremove, -⟩ := h.references_lookup hl
            rw [hsum, ← hremove, add_comm fp.references, ← add_assoc]
            exact (fragmentedPacketDestroy_moves fp _).append (ih h.remove _)
          · exact Moves.nil

lemma Wf.refresh_moves (h : pb.Wf) (t : ℤ) (M : Multiset NodeID) :
    Moves (M + pb.references) (packetBucketPeriodicRefreshRefs pb t)
      (M + (pb.fresh t).references) := by
  have hloop := h.refreshLoop_moves t pb.packetList [] M
  rw [refreshLoop_eq t [] h] at hloop
  exact hloop

lemma Wf.refresh_fst (h : pb.Wf) (t : ℤ) :
    (packetBucketPeriodicRefresh pb [] t).1 = pb.fresh t := by
  rw [packetBucketPeriodicRefresh_eq h]
  rfl

/-- Every fragment of a packet that is cut goes between the two nodes. -/
lemma mem_cutFragments_nodes {src dst : NodeID} {data : Bytes} {fragSize : ℕ} {f : Fragment}
    (hf : f ∈ cutFragments src dst pid data fragSize) : f.fromNode = src ∧ f.toNode = dst := by
  obtain ⟨i, -, rfl⟩ := List.mem_map.mp hf
  exact ⟨rfl, rfl⟩

lemma Wf.addPacket_moves (h : pb.Wf) {src dst : NodeID} (data : Bytes) {tSweep : ℤ} (tCreate : ℤ)
    (hfree : (pb.fresh tSweep).lookup pid = none) (hsrc : src ∈ M) (hdst : dst ∈ M) :
    Moves (M + pb.references) (packetBucketAddPacketRefs pb src dst pid data tSweep)
      (M + ((pb.fresh tSweep).insert
        ⟨pid, tCreate, cutFragments src dst pid data pb.fragSize⟩).references) := by
  set fp : FragmentedPacket := ⟨pid, tCreate, cutFragments src dst pid data pb.fragSize⟩ with hfp
  have hnew : (pb.fresh tSweep).lookup fp.packetId = none := hfree
  rw [(h.fresh tSweep).references_insert hnew, add_comm fp.references, ← add_assoc]
  have hinit : ∀ f ∈ fp.frags, f.fromNode ∈ M + (pb.fresh tSweep).references
      ∧ f.toNode ∈ M + (pb.fresh tSweep).references := fun f hf => by
    obtain ⟨hfrom, hto⟩ := mem_cutFragments_nodes hf
    rw [hfrom, hto]
    exact ⟨Multiset.mem_add.mpr (Or.inl hsrc), Multiset.mem_add.mpr (Or.inl hdst)⟩
  exact (h.refresh_moves tSweep M).append (fragmentedPacketInit_moves hinit)

/-- **An arriving fragment** takes the references of its packet, if that is new, and of the requests
it causes. -/
lemma Wf.addFragment_moves (h : pb.Wf) {f : Fragment} (tSweep tCreate : ℤ) (hfrom : f.fromNode ∈ M)
    (hto : f.toNode ∈ M) :
    Moves (M + pb.references) (packetBucketAddFragmentRefs pb f tSweep tCreate)
      (M + (pb.arrived f tSweep tCreate).references
        + queueReferences (arrivalRequests (pb.target f tSweep tCreate) f)) := by
  rw [packetBucketAddFragmentRefs, h.refresh_fst]
  refine (h.refresh_moves tSweep M).append ?_
  rw [PacketBucket.arrived, PacketBucket.obtain, PacketBucket.target]
  cases hl : (pb.fresh tSweep).lookup f.pid with
  | some fp =>
      obtain ⟨rest, hsum, -, hstore⟩ := (h.fresh tSweep).references_lookup hl
      have hid := (h.fresh tSweep).packetId_of_lookup hl
      simp only [Option.getD_some]
      rw [hsum, hstore (fp.put f) hid, add_comm fp.references, add_comm (fp.put f).references,
        ← add_assoc, ← add_assoc]
      exact fragmentedPacketWriteFragment_moves fp (Multiset.mem_add.mpr (Or.inl hfrom))
        (Multiset.mem_add.mpr (Or.inl hto))
  | none =>
      set fp := fragmentedPacketEmpty f.pid f.fromNode f.toNode f.fragNum tCreate with hfp
      have hnew : (pb.fresh tSweep).lookup fp.packetId = none := hl
      have hwf := (h.fresh tSweep).insert hnew
      have hlookup : ((pb.fresh tSweep).insert fp).lookup f.pid = some fp := by
        rw [(h.fresh tSweep).lookup_insert hnew, if_pos (by rw [hfp]; rfl)]
      obtain ⟨rest, hsum, -, hstore⟩ := hwf.references_lookup hlookup
      rw [(h.fresh tSweep).references_insert hnew] at hsum
      obtain rfl : (pb.fresh tSweep).references = rest := add_left_cancel hsum
      simp only [Option.getD_none]
      rw [hstore (fp.put f) rfl, add_comm (fp.put f).references, ← add_assoc]
      have hfrom' : f.fromNode ∈ M + (pb.fresh tSweep).references :=
        Multiset.mem_add.mpr (Or.inl hfrom)
      have hto' : f.toNode ∈ M + (pb.fresh tSweep).references := Multiset.mem_add.mpr (Or.inl hto)
      have hinit : ∀ g ∈ fp.frags, g.fromNode ∈ M + (pb.fresh tSweep).references
          ∧ g.toNode ∈ M + (pb.fresh tSweep).references := fun g hg => by
        obtain ⟨i, -, rfl⟩ := List.mem_map.mp hg
        exact ⟨hfrom', hto'⟩
      exact (fragmentedPacketInit_moves hinit).append
        (fragmentedPacketWriteFragment_moves fp hfrom' hto')

lemma Wf.popPacket_moves (h : pb.Wf) (pid : ℕ) (tSweep : ℤ) (M : Multiset NodeID) :
    Moves (M + pb.references) (packetBucketPopPacketRefs pb pid tSweep)
      (M + (pb.popped pid tSweep).references) := by
  rw [packetBucketPopPacketRefs, h.refresh_fst, PacketBucket.popped]
  refine (h.refresh_moves tSweep M).append ?_
  cases hl : (pb.fresh tSweep).lookup pid with
  | none => exact Moves.nil
  | some fp =>
      obtain ⟨rest, hsum, hremove, -⟩ := (h.fresh tSweep).references_lookup hl
      simp only
      rw [hremove, hsum, add_comm fp.references, ← add_assoc]
      exact fragmentedPacketDestroy_moves fp _

end PacketBucket

/-! ## Links -/

/-- Setting the list link of a fragment changes no reference of its packet. -/
lemma FragmentedPacket.relink_references (fp : FragmentedPacket) (id : ℕ) (b : Bool) :
    (fp.relink id b).references = fp.references := by
  refine congrArg List.sum (List.ext_getElem? fun i => ?_)
  rw [List.getElem?_map, List.getElem?_map, FragmentedPacket.relink, List.getElem?_modify]
  cases fp.frags[i]? with
  | none => rfl
  | some f => by_cases h : id = i <;> simp [h, NetMsg.references]

lemma Endpoint.references_relink (e : Endpoint) (hwf : e.outgoing.Wf) {fp : FragmentedPacket}
    {pid : ℕ} (hl : e.outgoing.lookup pid = some fp) (id : ℕ) (b : Bool) :
    ({ e with outgoing := e.outgoing.store (fp.relink id b) } : Endpoint).references
      = e.references := by
  obtain ⟨rest, hsum, -, hstore⟩ := hwf.references_lookup hl
  have hid := hwf.packetId_of_lookup hl
  rw [Endpoint.references, Endpoint.references, hstore (fp.relink id b) hid,
    fp.relink_references, hsum]

/-! ## Queues -/

section Queues

@[simp] lemma queueReferences_cons (el : QueueElem) (q : MsgList) :
    queueReferences (el :: q) = el.references + queueReferences q := rfl

@[simp] lemma queueReferences_append (q q' : MsgList) :
    queueReferences (q ++ q') = queueReferences q + queueReferences q' := by
  simp [queueReferences]

/-- Fragments have no references of their own in a queue. -/
@[simp] lemma queueReferences_fragments (frags : List Fragment) :
    queueReferences (frags.map fragmentListElement) = 0 := by
  induction frags with
  | nil => rfl
  | cons f frags ih =>
      rw [List.map_cons, queueReferences_cons, ih]
      rfl

@[simp] lemma queueReferences_fragmentDeinit (f : Fragment) (q : MsgList) :
    queueReferences (fragmentDeinit f q) = queueReferences q := by
  rw [fragmentDeinit]
  split_ifs
  · by_cases hmem : fragmentListElement f ∈ q
    · have hsum := List.sum_map_erase QueueElem.references hmem
      rw [queueReferences, queueReferences, ← hsum, fragmentListElement, QueueElem.references,
        zero_add]
    · rw [List.erase_of_not_mem hmem]
  · rfl

lemma queueReferences_destroy (fp : FragmentedPacket) (q : MsgList) :
    queueReferences (fragmentedPacketDestroy fp q) = queueReferences q := by
  rw [fragmentedPacketDestroy]
  induction fp.frags generalizing q with
  | nil => rfl
  | cons f frags ih => rw [List.foldl_cons, ih, queueReferences_fragmentDeinit]

lemma PacketBucket.queueReferences_unlink (pb : PacketBucket) (dead : List ℕ) (q : MsgList) :
    queueReferences (pb.unlink dead q) = queueReferences q := by
  rw [PacketBucket.unlink]
  induction dead generalizing q with
  | nil => rfl
  | cons pid dead ih =>
      rw [List.foldl_cons, ih]
      cases pb.lookup pid with
      | none => rfl
      | some fp => exact queueReferences_destroy fp q

@[simp] lemma Endpoint.queueReferences_sweptQueue (e : Endpoint) (t : ℤ) (q : MsgList) :
    queueReferences (e.sweptQueue t q) = queueReferences q :=
  e.outgoing.queueReferences_unlink _ q

end Queues

/-! ## The network manager -/

namespace NetworkManager

variable {nm : NetworkManager} {node : NodeID} {M : Multiset NodeID}

/-- The references of the endpoint of a node, if it has one. -/
def endpointReferences (nm : NetworkManager) (node : NodeID) : Multiset NodeID :=
  (nm.endpoint node).elim 0 Endpoint.references

/-- The endpoint of a node is one summand, and exchanged by itself. -/
lemma Wf.references_put (h : nm.Wf) (node : NodeID) :
    ∃ rest, nm.references = rest + queueReferences nm.outqueue + nm.endpointReferences node
      ∧ ∀ (e : Endpoint) (q : MsgList), nodeidEqual e.node node →
        (nm.put node e q).references = rest + queueReferences q + e.references := by
  rw [endpointReferences]
  cases he : nm.endpoint node with
  | some e =>
      obtain ⟨rest, hsum, hrest⟩ :=
        sum_ordSetFind Endpoint.references endpointCmp_lawful h.sorted he
      refine ⟨rest, ?_, fun e' q hnode => ?_⟩
      · rw [references, hsum, Option.elim_some]
        abel
      · have hkey : endpointCmp e' (endpointCreate node 0 0) = 0 := endpointCmp_eq_zero.mpr hnode
        rw [put_of_some he, references, store, (hrest e' hkey).2]
        abel
  | none =>
      refine ⟨(nm.endpoints.elements.map Endpoint.references).sum, ?_, fun e' q hnode => ?_⟩
      · rw [references, Option.elim_none, add_zero]
      · have hend : (nm.obtainEndpoint node).1.endpoint node = some (nm.endpointFor node) := by
          rw [h.endpoint_obtainEndpoint, if_pos (nodeidEqual_self node)]
        obtain ⟨rest, hsum, hrest⟩ := sum_ordSetFind Endpoint.references endpointCmp_lawful
          (h.obtainEndpoint node).sorted hend
        have hkey : endpointCmp e' (endpointCreate node 0 0) = 0 := endpointCmp_eq_zero.mpr hnode
        have hinsert : ((nm.obtainEndpoint node).1.endpoints.elements.map Endpoint.references).sum
            = (nm.endpointFor node).references
              + (nm.endpoints.elements.map Endpoint.references).sum := by
          rw [endpointFor_of_none he, NetworkManager.obtainEndpoint, he]
          exact sum_ordSetInsert _ endpointCmp_lawful h.sorted (h.find_none he)
        obtain rfl := add_left_cancel (hinsert.symm.trans hsum)
        rw [NetworkManager.put, references, store, (hrest e' hkey).2]
        abel

/-- The endpoint obtained for a node that is alive. -/
lemma Wf.obtainEndpoint_moves (node : NodeID) (hnode : node ∈ M) :
    Moves (M + nm.endpointReferences node) (nm.obtainEndpointRefs node)
      (M + (nm.endpointFor node).references) := by
  rw [endpointReferences, obtainEndpointRefs]
  cases he : nm.endpoint node with
  | some e =>
      rw [endpointFor_of_some he]
      exact Moves.nil
  | none =>
      have hnew : (nm.endpointFor node).references = {node} := by
        rw [endpointFor_of_none he]
        rfl
      rw [hnew, Option.elim_none, add_zero, add_comm M, Multiset.singleton_add]
      exact Moves.dup hnode

section Calls

variable {src dst : NodeID} {data : Bytes} {f : Fragment} {tSweep tCreate t : ℤ}

/-- **A packet sent** takes the references of its fragments, and that of its endpoint if it is
new. -/
lemma Wf.enqueued_moves (h : nm.Wf) (hdata : 0 < data.length) (hfree : nm.IdFree dst tSweep)
    (hsrc : src ∈ M) (hdst : dst ∈ M) :
    Moves (M + nm.references) (NmOp.refs nm (.enqueuePacket src dst data tSweep tCreate))
      (M + (nm.enqueued src dst data tSweep tCreate).references) := by
  obtain ⟨rest, hbefore, hput⟩ := h.references_put dst
  set e := nm.endpointFor dst with he
  have hsrc' : src ∈ M + (rest + queueReferences nm.outqueue)
      + ({e.node} + e.incoming.references) :=
    Multiset.mem_add.mpr (Or.inl (Multiset.mem_add.mpr (Or.inl hsrc)))
  have hnode' : e.node ∈ M + (rest + queueReferences nm.outqueue)
      + ({e.node} + e.incoming.references) := by
    simp only [Multiset.mem_add, Multiset.mem_singleton, true_or, or_true]
  have hadd := (h.endpointFor_wf dst).outgoing.addPacket_moves data tCreate hfree hsrc' hnode'
  have hobtain := @Wf.obtainEndpoint_moves nm (M + (rest + queueReferences nm.outqueue)) dst
    (Multiset.mem_add.mpr (Or.inl hdst))
  rw [NmOp.refs, if_pos hdata, obtainEndpoint_snd]
  refine (hobtain.of_eq ?_ ?_).append (hadd.of_eq rfl ?_)
  · rw [hbefore]
    abel
  · rw [Endpoint.references]
    abel
  · have hafter := hput (e.enqueued src data tSweep tCreate)
      ((e.cut src data).map fragmentListElement ++ e.sweptQueue tSweep nm.outqueue)
      (h.endpointFor_node dst)
    rw [enqueued, hafter, queueReferences_append, queueReferences_fragments, zero_add,
      Endpoint.queueReferences_sweptQueue, Endpoint.references, Endpoint.enqueued]
    abel

/-- **A fragment received** takes the references of its packet and endpoint, if they are new, and of
the requests it causes. -/
lemma Wf.arrived_moves (h : nm.Wf) (hfrom : f.fromNode ∈ M) (hto : f.toNode ∈ M) :
    Moves (M + nm.references) (NmOp.refs nm (.addFragment f tSweep tCreate))
      (M + (nm.arrived f tSweep tCreate).references) := by
  obtain ⟨rest, hbefore, hput⟩ := h.references_put f.fromNode
  set e := nm.endpointFor f.fromNode with he
  have hmem : ∀ n ∈ M, n ∈ M + (rest + queueReferences nm.outqueue)
      + ({e.node} + e.outgoing.references) := fun n hn =>
    Multiset.mem_add.mpr (Or.inl (Multiset.mem_add.mpr (Or.inl hn)))
  have hadd := (h.endpointFor_wf f.fromNode).incoming.addFragment_moves tSweep tCreate
    (hmem _ hfrom) (hmem _ hto)
  have hobtain := @Wf.obtainEndpoint_moves nm (M + (rest + queueReferences nm.outqueue)) f.fromNode
    (Multiset.mem_add.mpr (Or.inl hfrom))
  rw [NmOp.refs, obtainEndpoint_snd]
  refine (hobtain.of_eq ?_ ?_).append (hadd.of_eq rfl ?_)
  · rw [hbefore]
    abel
  · rw [Endpoint.references]
    abel
  · have hafter := hput { e with incoming := e.incoming.arrived f tSweep tCreate }
      (arrivalRequests (nm.target f tSweep tCreate) f ++ nm.outqueue)
      (h.endpointFor_node f.fromNode)
    rw [arrived, hafter, queueReferences_append, Endpoint.references, target]
    abel

/-- **A packet popped** gives the references of its slots back. -/
lemma Wf.popped_moves (h : nm.Wf) (src : NodeID) (pid size : ℕ) (tSweep : ℤ) (M : Multiset NodeID) :
    Moves (M + nm.references) (NmOp.refs nm (.popPacket src pid size tSweep))
      (M + (nm.popped src pid tSweep).references) := by
  rw [NmOp.refs, popped]
  cases he : nm.endpoint src with
  | none => exact Moves.nil
  | some e =>
      obtain ⟨rest, hbefore, hput⟩ := h.references_put src
      have hnode := h.nodeidEqual_of_endpoint he
      have hpop := (h.endpoint_wf he).incoming.popPacket_moves pid tSweep
        (M + (rest + queueReferences nm.outqueue) + ({e.node} + e.outgoing.references))
      refine hpop.of_eq ?_ ?_
      · rw [hbefore, endpointReferences, he, Option.elim_some, Endpoint.references]
        abel
      · have hafter := hput { e with incoming := e.incoming.popped pid tSweep } nm.outqueue
          hnode
        simp only
        rw [hafter, Endpoint.references]
        abel

/-- The sweep of an outgoing bucket gives the references of what it destroys back. -/
lemma Wf.refreshed_moves (h : nm.Wf) (dst : NodeID) (pid fid : ℕ) (t : ℤ) (M : Multiset NodeID) :
    Moves (M + nm.references) (NmOp.refs nm (.enqueueFragment dst pid fid t))
      (M + (nm.refreshed dst t).references) := by
  rw [NmOp.refs, refreshed]
  cases he : nm.endpoint dst with
  | none => exact Moves.nil
  | some e =>
      obtain ⟨rest, hbefore, hput⟩ := h.references_put dst
      have hnode := h.nodeidEqual_of_endpoint he
      have hsweep := (h.endpoint_wf he).outgoing.refresh_moves t
        (M + (rest + queueReferences nm.outqueue) + ({e.node} + e.incoming.references))
      refine hsweep.of_eq ?_ ?_
      · rw [hbefore, endpointReferences, he, Option.elim_some, Endpoint.references]
        abel
      · have hafter := hput (e.refreshed t) (e.sweptQueue t nm.outqueue) hnode
        simp only
        rw [hafter, Endpoint.queueReferences_sweptQueue, Endpoint.references, Endpoint.refreshed]
        abel

/-- Linking a fragment stores its endpoint again. -/
lemma Wf.references_link (h : nm.Wf) (e' : Endpoint) {e : Endpoint} {fp : FragmentedPacket}
    {pid : ℕ} (he : nm.endpoint node = some e) (hnode : e'.node = e.node) (hwf : e'.outgoing.Wf)
    (hl : e'.outgoing.lookup pid = some fp) (id : ℕ) (b : Bool) (q : MsgList) :
    (nm.link e' fp id b q).references = (nm.put node e' q).references := by
  obtain ⟨rest, -, hput⟩ := h.references_put node
  have hnode' : nodeidEqual e'.node node := hnode ▸ h.nodeidEqual_of_endpoint he
  have hlinked := hput { e' with outgoing := e'.outgoing.store (fp.relink id b) } q hnode'
  rw [link, ← put_of_some he, hlinked, hput e' q hnode', e'.references_relink hwf hl]

/-- A popped fragment stays with its packet, and a popped request leaves the queue. -/
lemma OutqueueInv.popMsg_references (h : nm.OutqueueInv) {nm' : NetworkManager}
    {m : Option NetMessage} (hpop : networkManagerPopOutgoingNetMsg nm = .ok (nm', m)) :
    nm.references = nm'.references + messageReferences (NmAnswer.message m).handed := by
  cases hq : nm.outqueue with
  | nil =>
      rw [networkManagerPopOutgoingNetMsg, hq] at hpop
      cases hpop
      exact (add_zero _).symm
  | cons el q =>
      cases el with
      | request r =>
          rw [networkManagerPopOutgoingNetMsg, hq] at hpop
          cases hpop
          have hr : messageReferences [.fragRequest { r with linked := false }]
              = r.toNetMsg.references := add_zero _
          rw [NmAnswer.handed, hr, references, references, hq, queueReferences_cons,
            QueueElem.references]
          abel
      | fragment d pid i =>
          obtain ⟨e, fp, f, he, -, hl, -, heq, -⟩ := h.pop_fragment hq
          rw [heq] at hpop
          cases hpop
          obtain ⟨rest, hbefore, hput⟩ := h.wf.references_put d
          rw [h.wf.references_link e he rfl (h.wf.endpoint_wf he).outgoing hl,
            hput e q (h.wf.nodeidEqual_of_endpoint he), hbefore, endpointReferences, he, hq,
            queueReferences_cons, QueueElem.references, zero_add]
          exact (add_zero _).symm

/-- Queueing a stored fragment again changes no more than the sweep does. -/
lemma OutqueueInv.enqueueFragment_references (h : nm.OutqueueInv) (dst : NodeID) (pid fid : ℕ)
    (t : ℤ) :
    (networkManagerEnqueueOutgoingFragment nm dst pid fid t).1.references
      = (nm.refreshed dst t).references := by
  rcases networkManagerEnqueueOutgoingFragment_cases h dst pid fid t with
    ⟨-, heq⟩ | ⟨e, fp, f, he, hl, -, -, heq⟩
  · rw [heq]
  · rw [heq]
    split_ifs
    · rfl
    · have hwf := Endpoint.refreshed_wf (h.wf.endpoint_wf he) t
      have hnode := h.wf.nodeidEqual_of_endpoint he
      have hnode' : nodeidEqual (e.refreshed t).node dst := hnode
      obtain ⟨rest, -, hput⟩ := h.wf.references_put dst
      rw [h.wf.references_link (e.refreshed t) he rfl hwf.outgoing hl, hput _ _ hnode',
        refreshed_of_some he, hput _ _ hnode', put_outqueue, queueReferences_append]
      exact congrArg (rest + · + _) (add_zero _)

/-- **A call to the network manager**, in a state in which the nodes passed are referenced: its
operations on the counters may be made, and lead to the references it leaves and hands over. -/
theorem OutqueueInv.step_moves (h : nm.OutqueueInv) {op : NmOp} {nm' : NetworkManager}
    {a : NmAnswer} (hs : networkManagerStep nm op = .ok (nm', a)) (hnodes : ∀ n ∈ op.nodes, n ∈ M) :
    Moves (M + nm.references) (op.refs nm)
      (M + nm'.references + messageReferences a.handed) := by
  cases op with
  | enqueuePacket src dst data tSweep tCreate =>
      rcases networkManagerStep_enqueuePacket h.wf hs with
        ⟨rfl, rfl, rfl⟩ | ⟨hdata, -, hfree, rfl, rfl⟩
      · exact Moves.nil.of_eq rfl (add_zero _)
      · exact (h.wf.enqueued_moves hdata hfree (hnodes src (by simp [NmOp.nodes]))
          (hnodes dst (by simp [NmOp.nodes]))).of_eq rfl (add_zero _)
  | popMsg =>
      simp only [networkManagerStep, Eval.bind_eq_ok] at hs
      obtain ⟨⟨nm₁, m⟩, hpop, he⟩ := hs
      cases he
      rw [h.popMsg_references hpop, ← add_assoc]
      exact Moves.nil
  | enqueueFragment dst pid fid t =>
      have hs' : Except.ok ((networkManagerEnqueueOutgoingFragment nm dst pid fid t).1,
          NmAnswer.code (networkManagerEnqueueOutgoingFragment nm dst pid fid t).2)
          = Except.ok (nm', a) := hs
      rw [Except.ok.injEq, Prod.mk.injEq] at hs'
      rw [← hs'.1, ← hs'.2, h.enqueueFragment_references]
      exact (h.wf.refreshed_moves dst pid fid t M).of_eq rfl (add_zero _)
  | addFragment f tSweep tCreate =>
      rw [networkManagerStep, h.addFragment] at hs
      cases hs
      exact (h.wf.arrived_moves (hnodes f.fromNode (by simp [NmOp.nodes]))
        (hnodes f.toNode (by simp [NmOp.nodes]))).of_eq rfl (add_zero _)
  | popPacket src pid size tSweep =>
      rw [networkManagerStep, h.popPacket] at hs
      cases hs
      exact (h.wf.popped_moves src pid size tSweep M).of_eq rfl (add_zero _)

end Calls

end NetworkManager

end PeerStreamer
