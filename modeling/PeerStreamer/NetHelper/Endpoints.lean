import PeerStreamer.NetHelper.NetworkManager

/-!
# Looking up endpoints

The endpoints of a network manager are kept in a sorted array keyed by node.
`NetworkManager.Wf` says that the array is sorted and the buckets are well-formed, and the
lemmas below turn the operations of `network_manager.c` into what `NetworkManager.endpoint`
answers afterwards.  Every operation that changes an endpoint is a `NetworkManager.put`, so
`Wf.endpoint_put` and `Wf.put` are all the later files need to know about the array.
-/

namespace PeerStreamer

/-! ## The order on endpoints -/

lemma nodeidEqual_trans {a b c : NodeID} (hab : nodeidEqual a b) (hbc : nodeidEqual b c) :
    nodeidEqual a c := by
  rw [nodeidEqual_iff] at hab hbc ⊢
  exact ⟨hab.1.trans hbc.1, hab.2.trans hbc.2⟩

lemma nodeidEqual_symm {a b : NodeID} (h : nodeidEqual a b) : nodeidEqual b a := by
  rwa [nodeidEqual_comm]

/-- Equal nodes are equal to the same nodes. -/
lemma nodeidEqual_congr_left {a b : NodeID} (h : nodeidEqual a b) (c : NodeID) :
    nodeidEqual a c = nodeidEqual b c :=
  Bool.eq_iff_iff.mpr ⟨nodeidEqual_trans (nodeidEqual_symm h), nodeidEqual_trans h⟩

lemma endpointCmp_eq_zero {e₁ e₂ : Endpoint} :
    endpointCmp e₁ e₂ = 0 ↔ nodeidEqual e₁.node e₂.node := by
  rw [endpointCmp]
  split_ifs <;> simp_all

/-- `endpoint_cmp` is the sign of `nodeid_cmp`. -/
lemma endpointCmp_sign (e₁ e₂ : Endpoint) :
    (endpointCmp e₁ e₂ < 0 ↔ nodeidCmp e₁.node e₂.node < 0)
      ∧ (endpointCmp e₁ e₂ = 0 ↔ nodeidCmp e₁.node e₂.node = 0) := by
  refine ⟨?_, by rw [endpointCmp_eq_zero, nodeidEqual, decide_eq_true_iff]⟩
  simp only [endpointCmp, nodeidEqual, decide_eq_true_eq]
  split_ifs <;> simp <;> omega

lemma endpointCmp_lawful : LawfulCmp endpointCmp := by
  constructor
  · intro a b
    have h₁ := endpointCmp_sign a b
    have h₂ := endpointCmp_sign b a
    have := nodeidCmp_lawful.swap a.node b.node
    omega
  · intro a b c hab hbc
    have h₁ := endpointCmp_sign a b
    have h₂ := endpointCmp_sign b c
    have h₃ := endpointCmp_sign a c
    have := nodeidCmp_lawful.trans a.node b.node c.node (by omega) (by omega)
    omega

/-! ## Well-formed network managers -/

/-- Both buckets of an endpoint are well-formed and have the limits of the manager. -/
structure Endpoint.Wf (e : Endpoint) (fragSize maxPktAge : ℕ) : Prop where
  incoming : e.incoming.Wf
  outgoing : e.outgoing.Wf
  fragSize : e.outgoing.fragSize = fragSize
  inAge : e.incoming.maxPktAge = maxPktAge
  outAge : e.outgoing.maxPktAge = maxPktAge

lemma endpointCreate_wf (node : NodeID) (fragSize maxPktAge : ℕ) :
    (endpointCreate node fragSize maxPktAge).Wf fragSize maxPktAge :=
  ⟨PacketBucket.create_wf _ _, PacketBucket.create_wf _ _, rfl, rfl, rfl⟩

/-- The array is sorted and every endpoint in it well-formed. -/
structure NetworkManager.Wf (nm : NetworkManager) : Prop where
  sorted : nm.endpoints.Sorted endpointCmp
  wf : ∀ e ∈ nm.endpoints.elements, e.Wf nm.fragSize nm.maxPktAge

lemma networkManagerCreate_wf (config : NetworkConfig) : (networkManagerCreate config).Wf :=
  ⟨ordSetNew_sorted endpointCmp 10, fun _ h => absurd h List.not_mem_nil⟩

@[simp] lemma networkManagerCreate_endpoint (config : NetworkConfig) (n : NodeID) :
    (networkManagerCreate config).endpoint n = none := rfl

@[simp] lemma networkManagerCreate_outqueue (config : NetworkConfig) :
    (networkManagerCreate config).outqueue = [] := rfl

/-- The endpoint an operation on `node` works with. -/
def NetworkManager.endpointFor (nm : NetworkManager) (node : NodeID) : Endpoint :=
  (nm.endpoint node).getD (endpointCreate node nm.fragSize nm.maxPktAge)

/-- The network manager with `e` stored for `node`, in whose place an endpoint is created first if
there is none. -/
def NetworkManager.put (nm : NetworkManager) (node : NodeID) (e : Endpoint) (q : MsgList) :
    NetworkManager :=
  (nm.obtainEndpoint node).1.store e q

namespace NetworkManager

variable {nm : NetworkManager} {node n : NodeID} {e : Endpoint} {q : MsgList}

lemma Wf.endpoint_eq_some (h : nm.Wf) :
    nm.endpoint node = some e ↔ e ∈ nm.endpoints.elements ∧ nodeidEqual e.node node := by
  rw [endpoint, ordSetFind_eq_some endpointCmp_lawful h.sorted, endpointCmp_eq_zero]
  rfl

lemma Wf.nodeidEqual_of_endpoint (h : nm.Wf) (he : nm.endpoint node = some e) :
    nodeidEqual e.node node := (h.endpoint_eq_some.mp he).2

lemma Wf.endpoint_wf (h : nm.Wf) (he : nm.endpoint node = some e) :
    e.Wf nm.fragSize nm.maxPktAge := h.wf e (h.endpoint_eq_some.mp he).1

/-- Equal nodes have the same endpoint. -/
lemma Wf.endpoint_congr (h : nm.Wf) (hn : nodeidEqual node n) :
    nm.endpoint node = nm.endpoint n := by
  ext e
  rw [h.endpoint_eq_some, h.endpoint_eq_some]
  exact and_congr_right fun _ =>
    ⟨fun he => nodeidEqual_trans he hn, fun he => nodeidEqual_trans he (nodeidEqual_symm hn)⟩

lemma endpointFor_of_some (he : nm.endpoint node = some e) : nm.endpointFor node = e := by
  rw [endpointFor, he]
  rfl

lemma endpointFor_of_none (he : nm.endpoint node = none) :
    nm.endpointFor node = endpointCreate node nm.fragSize nm.maxPktAge := by
  rw [endpointFor, he]
  rfl

lemma obtainEndpoint_of_some (he : nm.endpoint node = some e) :
    nm.obtainEndpoint node = (nm, e) := by
  rw [obtainEndpoint, he]

lemma obtainEndpoint_snd : (nm.obtainEndpoint node).2 = nm.endpointFor node := by
  rw [obtainEndpoint, endpointFor]
  cases nm.endpoint node <;> rfl

lemma obtainEndpoint_outqueue : (nm.obtainEndpoint node).1.outqueue = nm.outqueue := by
  rw [obtainEndpoint]
  cases nm.endpoint node <;> rfl

lemma put_of_some (he : nm.endpoint node = some e) (e' : Endpoint) :
    nm.put node e' q = nm.store e' q := by
  rw [put, obtainEndpoint_of_some he]

lemma Wf.endpointFor_wf (h : nm.Wf) (node : NodeID) :
    (nm.endpointFor node).Wf nm.fragSize nm.maxPktAge := by
  cases he : nm.endpoint node with
  | none => rw [endpointFor_of_none he]; exact endpointCreate_wf _ _ _
  | some e => rw [endpointFor_of_some he]; exact h.endpoint_wf he

lemma Wf.endpointFor_node (h : nm.Wf) (node : NodeID) :
    nodeidEqual (nm.endpointFor node).node node := by
  cases he : nm.endpoint node with
  | none => rw [endpointFor_of_none he]; exact nodeidEqual_self _
  | some e => rw [endpointFor_of_some he]; exact h.nodeidEqual_of_endpoint he

@[simp] lemma put_outqueue : (nm.put node e q).outqueue = q := rfl

@[simp] lemma put_fragSize : (nm.put node e q).fragSize = nm.fragSize := by
  rw [put, obtainEndpoint]
  cases nm.endpoint node <;> rfl

@[simp] lemma put_maxPktAge : (nm.put node e q).maxPktAge = nm.maxPktAge := by
  rw [put, obtainEndpoint]
  cases nm.endpoint node <;> rfl

/-- The lookup `obtainEndpoint` makes comes from an absent endpoint. -/
lemma Wf.find_none (h : nm.Wf) (he : nm.endpoint node = none) :
    ordSetFind endpointCmp nm.endpoints (endpointCreate node nm.fragSize nm.maxPktAge) = none := by
  rw [endpoint, ordSetFind_eq_none endpointCmp_lawful h.sorted] at he
  rw [ordSetFind_eq_none endpointCmp_lawful h.sorted]
  intro x hx
  have hne := he x hx
  rw [Ne, endpointCmp_eq_zero] at hne ⊢
  exact hne

lemma Wf.obtainEndpoint (h : nm.Wf) (node : NodeID) : (nm.obtainEndpoint node).1.Wf := by
  rw [NetworkManager.obtainEndpoint]
  cases he : nm.endpoint node with
  | some e => exact h
  | none =>
      refine ⟨ordSetInsert_sorted endpointCmp_lawful h.sorted _ (h.find_none he), fun e' he' => ?_⟩
      rcases (mem_ordSetInsert endpointCmp_lawful h.sorted (h.find_none he)).mp he' with rfl | hm
      · exact endpointCreate_wf _ _ _
      · exact h.wf e' hm

lemma Wf.endpoint_obtainEndpoint (h : nm.Wf) (node n : NodeID) :
    (nm.obtainEndpoint node).1.endpoint n
      = if nodeidEqual node n then some (nm.endpointFor node) else nm.endpoint n := by
  cases he : nm.endpoint node with
  | some e =>
      rw [obtainEndpoint_of_some he, endpointFor_of_some he]
      split_ifs with hn
      · rw [← h.endpoint_congr hn, he]
      · rfl
  | none =>
      rw [endpointFor_of_none he, NetworkManager.obtainEndpoint, he]
      simp only [endpoint]
      rw [ordSetFind_insert endpointCmp_lawful h.sorted (h.find_none he)]
      exact if_congr endpointCmp_eq_zero rfl rfl

/-- **A store changes one endpoint.** -/
theorem Wf.endpoint_put (h : nm.Wf) (he : nodeidEqual e.node node) :
    (nm.put node e q).endpoint n = if nodeidEqual node n then some e else nm.endpoint n := by
  have hfind := ordSetFind_write endpointCmp_lawful (h.obtainEndpoint node).sorted e
    (endpointCreate n 0 0)
  have hkey : endpointCmp e (endpointCreate n 0 0) = 0 ↔ nodeidEqual node n := by
    rw [endpointCmp_eq_zero, ← nodeidEqual_congr_left he]
    rfl
  have hobt := h.endpoint_obtainEndpoint node n
  simp only [endpoint] at hobt
  simp only [put, store, endpoint]
  rw [hfind, hobt]
  by_cases hn : nodeidEqual node n
  · rw [if_pos (hkey.mpr hn), if_pos hn, if_pos hn]
    rfl
  · rw [if_neg (mt hkey.mp hn), if_neg hn, if_neg hn]

lemma Wf.put (h : nm.Wf) (he : e.Wf nm.fragSize nm.maxPktAge) : (nm.put node e q).Wf := by
  refine ⟨ordSetWrite_sorted endpointCmp_lawful (h.obtainEndpoint node).sorted e, fun e' he' => ?_⟩
  rw [put_fragSize, put_maxPktAge]
  rcases mem_ordSetWrite.mp he' with ⟨rfl, -⟩ | ⟨hm, -⟩
  · exact he
  · have hwf := (h.obtainEndpoint node).wf e' hm
    have hsizes : (nm.obtainEndpoint node).1.fragSize = nm.fragSize
        ∧ (nm.obtainEndpoint node).1.maxPktAge = nm.maxPktAge := by
      rw [NetworkManager.obtainEndpoint]
      cases nm.endpoint node <;> exact ⟨rfl, rfl⟩
    rwa [hsizes.1, hsizes.2] at hwf

/-- What every endpoint satisfied before a store, and the stored one does, every endpoint satisfies
after it. -/
lemma Wf.forall_put (h : nm.Wf) (he : nodeidEqual e.node node) {P : Endpoint → Prop}
    (hP : ∀ n e, nm.endpoint n = some e → P e) (hPe : P e) :
    ∀ n e', (nm.put node e q).endpoint n = some e' → P e' := by
  intro n e' he'
  rw [h.endpoint_put he] at he'
  split_ifs at he'
  · obtain rfl := Option.some.inj he'
    exact hPe
  · exact hP n e' he'

end NetworkManager

/-! ## The operations as stores -/

section Operations

variable {nm : NetworkManager} {src dst : NodeID} {tSweep tCreate : ℤ}

/-- The fragments the next packet to an endpoint is cut into. -/
def Endpoint.cut (e : Endpoint) (src : NodeID) (data : Bytes) : List Fragment :=
  cutFragments src e.node e.outId data e.outgoing.fragSize

/-- The endpoint after a packet has been cut and stored under its next id. -/
def Endpoint.enqueued (e : Endpoint) (src : NodeID) (data : Bytes) (tSweep tCreate : ℤ) :
    Endpoint :=
  { e with
    outgoing := (e.outgoing.fresh tSweep).insert ⟨e.outId, tCreate, e.cut src data⟩
    outId := (e.outId + 1) % 2 ^ 16 }

/-- The 16-bit counter moves on by one until it comes round. -/
lemma Endpoint.enqueued_outId {e : Endpoint} (h : e.outId + 1 < 65536) (data : Bytes) :
    (e.enqueued src data tSweep tCreate).outId = e.outId + 1 :=
  Nat.mod_eq_of_lt h

/-- The new packet is stored under the id that was next, if that was free. -/
lemma Endpoint.enqueued_lookup {e : Endpoint} {data : Bytes} (h : e.outgoing.Wf)
    (hfree : (e.outgoing.fresh tSweep).lookup e.outId = none) (pid : ℕ) :
    (e.enqueued src data tSweep tCreate).outgoing.lookup pid
      = if e.outId = pid then some ⟨e.outId, tCreate, e.cut src data⟩
        else (e.outgoing.fresh tSweep).lookup pid :=
  (h.fresh tSweep).lookup_insert hfree

/-- The queue after the outgoing bucket of an endpoint has been swept. -/
def Endpoint.sweptQueue (e : Endpoint) (tSweep : ℤ) (q : MsgList) : MsgList :=
  e.outgoing.unlink (e.outgoing.swept tSweep) q

/-- `network_manager_enqueue_outgoing_packet` on a payload that is cut, under an id that is
free. -/
lemma networkManagerEnqueueOutgoingPacket_eq (h : nm.Wf) (src : NodeID) (tCreate : ℤ) {data : Bytes}
    (hdata : 0 < data.length) (hsize : 0 < nm.fragSize)
    (hfree : ((nm.endpointFor dst).outgoing.fresh tSweep).lookup (nm.endpointFor dst).outId
      = none) :
    networkManagerEnqueueOutgoingPacket nm src dst data tSweep tCreate
      = .ok (nm.put dst ((nm.endpointFor dst).enqueued src data tSweep tCreate)
          (((nm.endpointFor dst).cut src data).map fragmentListElement
            ++ (nm.endpointFor dst).sweptQueue tSweep nm.outqueue), 0) := by
  have hwf := h.endpointFor_wf dst
  rw [networkManagerEnqueueOutgoingPacket, if_pos hdata]
  have hobt : nm.obtainEndpoint dst = ((nm.obtainEndpoint dst).1, nm.endpointFor dst) := by
    rw [← NetworkManager.obtainEndpoint_snd]
  rw [hobt]
  simp only [endpointEnqueueOutgoingPacket, if_pos hdata, NetworkManager.obtainEndpoint_outqueue]
  rw [packetBucketAddPacket_eq hwf.outgoing hdata (by rw [hwf.fragSize]; exact hsize) hfree]
  rfl

/-- `network_manager_add_incoming_fragment` is a store of the endpoint it came from. -/
lemma networkManagerAddIncomingFragment_eq (f : Fragment) :
    networkManagerAddIncomingFragment nm f tSweep tCreate
      = (let e := nm.endpointFor f.fromNode
         let r := packetBucketAddFragment e.incoming f [] nm.outqueue tSweep tCreate
         (nm.put f.fromNode { e with incoming := r.1 } (r.2.2.1 ++ r.2.2.2), r.2.1)) := by
  have hobt : nm.obtainEndpoint f.fromNode
      = ((nm.obtainEndpoint f.fromNode).1, nm.endpointFor f.fromNode) := by
    rw [← NetworkManager.obtainEndpoint_snd]
  rw [networkManagerAddIncomingFragment, hobt]
  simp only [endpointAddIncomingFragment, NetworkManager.obtainEndpoint_outqueue]
  rfl

/-- `network_manager_pop_incoming_packet` on a known node is a store of its endpoint. -/
lemma networkManagerPopIncomingPacket_some {e : Endpoint} (he : nm.endpoint src = some e)
    (id size : ℕ) :
    networkManagerPopIncomingPacket nm src id size tSweep
      = (let r := packetBucketPopPacket e.incoming id size nm.outqueue tSweep
         (nm.put src { e with incoming := r.1 } r.2.1, r.2.2)) := by
  rw [networkManagerPopIncomingPacket, he]
  simp only [endpointPopIncomingPacket, NetworkManager.put_of_some he]

end Operations

end PeerStreamer
