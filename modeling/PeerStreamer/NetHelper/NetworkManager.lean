import PeerStreamer.NetHelper.PacketBucket

/-!
# Endpoints and the network manager

`endpoint.c` and `network_manager.c`.  The network manager keeps one endpoint per remote node, with
a bucket for the packets sent to it and one for the packets received from it, and a single outgoing
queue into which the fragments of all outgoing buckets and the requests for lost fragments are
linked.

Every operation takes the clock readings it makes as arguments, in the order it makes them.  The
pointer arguments of the source that are tested against NULL are values here; the tests that
remain are those on the payload length.
-/

namespace PeerStreamer

/-! ## Endpoints -/

/-- `struct endpoint` -/
structure Endpoint where
  node : NodeID
  incoming : PacketBucket
  outgoing : PacketBucket
  outId : ℕ
  deriving DecidableEq

/-- `endpoint_create` -/
def endpointCreate (node : NodeID) (fragSize maxPktAge : ℕ) : Endpoint :=
  { node
    incoming := packetBucketCreate fragSize maxPktAge
    outgoing := packetBucketCreate fragSize maxPktAge
    outId := 0 }

/-- `endpoint_cmp` -/
def endpointCmp (e₁ e₂ : Endpoint) : ℤ :=
  if nodeidEqual e₁.node e₂.node then 0
  else if nodeidCmp e₁.node e₂.node > 0 then 1 else -1

/-- `endpoint_enqueue_outgoing_packet`: `out_id` is a 16-bit counter and moves on whether or not
the packet is stored. -/
def endpointEnqueueOutgoingPacket (e : Endpoint) (src : NodeID) (data : Bytes)
    (tSweep tCreate : ℤ) (q : MsgList) : Eval (Endpoint × MsgList × Option MsgList) :=
  if data.length > 0 then do
    let (outgoing, q, res) ←
      packetBucketAddPacket e.outgoing src e.node e.outId data tSweep tCreate q
    return ({ e with outgoing, outId := (e.outId + 1) % 2 ^ 16 }, q, res)
  else return (e, q, none)

/-- `endpoint_add_incoming_fragment` -/
def endpointAddIncomingFragment (e : Endpoint) (f : Fragment) (requests q : MsgList)
    (tSweep tCreate : ℤ) : Endpoint × PacketState × MsgList × MsgList :=
  let (incoming, res, requests, q) :=
    packetBucketAddFragment e.incoming f requests q tSweep tCreate
  ({ e with incoming }, res, requests, q)

/-- `endpoint_pop_incoming_packet` -/
def endpointPopIncomingPacket (e : Endpoint) (pid size : ℕ) (q : MsgList) (tSweep : ℤ) :
    Endpoint × MsgList × ℤ × Bytes × ℕ :=
  let (incoming, q, res, bytes, size) := packetBucketPopPacket e.incoming pid size q tSweep
  ({ e with incoming }, q, res, bytes, size)

/-- `endpoint_get_outgoing_fragment` -/
def endpointGetOutgoingFragment (e : Endpoint) (pid fid : ℕ) (q : MsgList) (tSweep : ℤ) :
    Endpoint × MsgList × Option Fragment :=
  let (outgoing, q, f) := packetBucketGetFragment e.outgoing pid fid q tSweep
  ({ e with outgoing }, q, f)

/-! ## The network manager -/

/-- `struct network_manager` -/
structure NetworkManager where
  outqueue : MsgList
  endpoints : OrdSet Endpoint
  fragSize : ℕ
  maxPktAge : ℕ
  deriving DecidableEq

def DEFAULT_FRAG_SIZE : CInt := ⟨1200, by decide, by decide⟩
def DEFAULT_PKT_MAX_AGE : CInt := ⟨4, by decide, by decide⟩

/-- What the configuration string says about the two keys `network_manager_create` looks up. -/
structure NetworkConfig where
  fragSize : Option CInt
  maxPktAge : Option CInt

/-- The `int` a configuration gives for `frag_size`. -/
def NetworkConfig.fragSizeInt (config : NetworkConfig) : ℤ :=
  (config.fragSize.getD DEFAULT_FRAG_SIZE).val

/-- `network_manager_create`: the two `int`s are converted to `size_t` and `uint16_t`. -/
def networkManagerCreate (config : NetworkConfig) : NetworkManager :=
  { outqueue := []
    endpoints := ordSetNew 10
    fragSize := (config.fragSizeInt % 2 ^ 64).toNat
    maxPktAge := ((config.maxPktAge.getD DEFAULT_PKT_MAX_AGE).val % 2 ^ 16).toNat }

/-- The endpoint of a node, found as the source does: the address of the pointer to the node stands
for an endpoint, of which `endpoint_cmp` looks at the first member only. -/
def NetworkManager.endpoint (nm : NetworkManager) (node : NodeID) : Option Endpoint :=
  ordSetFind endpointCmp nm.endpoints (endpointCreate node 0 0)

/-- The lookup that creates the endpoint if the node has none yet. -/
def NetworkManager.obtainEndpoint (nm : NetworkManager) (node : NodeID) :
    NetworkManager × Endpoint :=
  match nm.endpoint node with
  | some e => (nm, e)
  | none =>
      let e := endpointCreate node nm.fragSize nm.maxPktAge
      ({ nm with endpoints := (ordSetInsert endpointCmp nm.endpoints e false).1 }, e)

/-- A store to the endpoint with the node of `e`, together with the queue as it is then. -/
def NetworkManager.store (nm : NetworkManager) (e : Endpoint) (q : MsgList) : NetworkManager :=
  { nm with endpoints := ordSetWrite endpointCmp nm.endpoints e, outqueue := q }

/-- `network_manager_enqueue_outgoing_packet` -/
def networkManagerEnqueueOutgoingPacket (nm : NetworkManager) (src dst : NodeID) (data : Bytes)
    (tSweep tCreate : ℤ) : Eval (NetworkManager × ℤ) :=
  if data.length > 0 then do
    let (nm, e) := nm.obtainEndpoint dst
    let (e, q, fragList) ←
      endpointEnqueueOutgoingPacket e src data tSweep tCreate nm.outqueue
    match fragList with
    -- `list_splice` puts the new elements right after the list head
    | some fragList => return (nm.store e (fragList ++ q), 0)
    | none => return (nm.store e q, -1)
  else return (nm, -1)

/-- The fragment a queue element refers to. -/
def NetworkManager.queued (nm : NetworkManager) (toNode : NodeID) (pid id : ℕ) :
    Option (Endpoint × FragmentedPacket × Fragment) :=
  match nm.endpoint toNode with
  | none => none
  | some e =>
      match e.outgoing.lookup pid with
      | none => none
      | some fp => fp.frags[id]?.map fun f => (e, fp, f)

/-- A packet with the list link of one slot set to `linked`. -/
def FragmentedPacket.relink (fp : FragmentedPacket) (id : ℕ) (linked : Bool) : FragmentedPacket :=
  { fp with frags := fp.frags.modify id fun f => { f with linked } }

/-- The network manager with the list link of a stored fragment set to `linked`. -/
def NetworkManager.link (nm : NetworkManager) (e : Endpoint) (fp : FragmentedPacket) (id : ℕ)
    (linked : Bool) (q : MsgList) : NetworkManager :=
  nm.store { e with outgoing := e.outgoing.store (fp.relink id linked) } q

/-- `network_manager_pop_outgoing_net_msg`: the first element of the queue, with the NULL link
`list_del` leaves it, and the message as the caller finds it behind the pointer. -/
def networkManagerPopOutgoingNetMsg (nm : NetworkManager) :
    Eval (NetworkManager × Option NetMessage) :=
  match nm.outqueue with
  | [] => .ok (nm, none)
  | .request r :: q =>
      .ok ({ nm with outqueue := q }, some (.fragRequest { r with linked := false }))
  | .fragment toNode pid id :: q =>
      match nm.queued toNode pid id with
      | none => .error .useAfterFree
      | some (e, fp, f) =>
          .ok (nm.link e fp id false q, some (.fragment { f with linked := false }))

/-- `network_manager_outgoing_queue_ready` -/
def networkManagerOutgoingQueueReady (nm : NetworkManager) : Bool := !nm.outqueue.isEmpty

/-- `network_manager_add_incoming_fragment` -/
def networkManagerAddIncomingFragment (nm : NetworkManager) (f : Fragment)
    (tSweep tCreate : ℤ) : NetworkManager × PacketState :=
  let (nm, e) := nm.obtainEndpoint f.fromNode
  let (e, res, requests, q) := endpointAddIncomingFragment e f [] nm.outqueue tSweep tCreate
  (nm.store e (requests ++ q), res)

/-- `network_manager_pop_incoming_packet`: the return code, the bytes written at the start of the
buffer and the new value of `*size`. -/
def networkManagerPopIncomingPacket (nm : NetworkManager) (src : NodeID) (id size : ℕ)
    (tSweep : ℤ) : NetworkManager × ℤ × Bytes × ℕ :=
  match nm.endpoint src with
  | none => (nm, -2, [], size)
  | some e =>
      let (e, q, res, bytes, size) := endpointPopIncomingPacket e id size nm.outqueue tSweep
      (nm.store e q, res, bytes, size)

/-- `network_manager_enqueue_outgoing_fragment` -/
def networkManagerEnqueueOutgoingFragment (nm : NetworkManager) (dst : NodeID) (id fid : ℕ)
    (tSweep : ℤ) : NetworkManager × ℤ :=
  match nm.endpoint dst with
  | none => (nm, -2)
  | some e =>
      let (e, q, f) := endpointGetOutgoingFragment e id fid nm.outqueue tSweep
      match f with
      | none => (nm.store e q, -2)
      | some f =>
          if f.linked then (nm.store e q, 1)
          else
            match e.outgoing.lookup id with
            | none => (nm.store e q, -2)
            | some fp => (nm.link e fp fid true (q ++ [fragmentListElement f]), 0)

end PeerStreamer
