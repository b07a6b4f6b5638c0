import PeerStreamer.NetHelper.ListHead
import PeerStreamer.NetHelper.Runs

/-!
# What the network manager does with lists

The list heads of a network manager are embedded in it, in its buckets, in the packets and their
fragments and in the requests; a `ListNode` names one of them.  For every operation of
`network_manager.c` and what it calls, this file says which calls of `list.h` it makes, in which
order, and what it goes on with: which node a loop comes to, whether a fragment has been added.

A fragment is linked into the queue while it is stored, so its place names it.  Requests are
numbered as they are created; `ListUse` says which of them are queued.
-/

namespace PeerStreamer

/-- The two buckets of an endpoint. -/
inductive Direction
  | incoming
  | outgoing
  deriving DecidableEq, Repr

/-- `incoming` or `outgoing` -/
def Endpoint.bucket (e : Endpoint) : Direction → PacketBucket
  | .incoming => e.incoming
  | .outgoing => e.outgoing

/-- The list heads: `outqueue`, the list of what is new (`frag_list`, `requests`), `packet_list`,
the `list` of a packet, of a fragment and of a request. -/
inductive ListNode
  | outqueue
  | fresh
  | packets (d : Direction) (n : NodeID)
  | packet (d : Direction) (n : NodeID) (pid : ℕ)
  | slot (d : Direction) (n : NodeID) (pid i : ℕ)
  | request (k : ℕ)
  deriving DecidableEq, Repr

abbrev ListCalls := Transcript ListNode

/-- A call that answers nothing. -/
def plain (c : ListCall ListNode) : ListCall ListNode × ListAnswer ListNode := (c, .done)

/-- `x->next`, which is `y`. -/
def reads (x y : ListNode) : ListCall ListNode × ListAnswer ListNode := (.next x, .node (some y))

/-! ## Packets -/

section Packets

variable (d : Direction) (n : NodeID)

/-- The fragments of a packet. -/
def FragmentedPacket.slots (fp : FragmentedPacket) : List ListNode :=
  (List.range fp.fragNum).map (.slot d n fp.packetId)

/-- `fragmented_packet_create`, with every fragment put on the list `msgs`. -/
def fragmentedPacketCreateCalls (fp : FragmentedPacket) (msgs : ListNode) : ListCalls :=
  [plain (.malloc [.packet d n fp.packetId]), plain (.init (.packet d n fp.packetId)),
    plain (.malloc (fp.slots d n))] ++ (fp.slots d n).map fun x => plain (.addTail x msgs)

/-- `fragmented_packet_empty` -/
def fragmentedPacketEmptyCalls (fp : FragmentedPacket) : ListCalls :=
  [plain (.malloc [.packet d n fp.packetId]), plain (.init (.packet d n fp.packetId)),
    plain (.malloc (fp.slots d n))] ++ (fp.slots d n).map fun x => plain (.memset x)

/-- `fragmented_packet_destroy` -/
def fragmentedPacketDestroyCalls (fp : FragmentedPacket) : ListCalls :=
  (fp.slots d n).map (fun x => plain (.del x))
    ++ [plain (.free (fp.slots d n)), plain (.free [.packet d n fp.packetId])]

/-- `frag_request_create` of the requests with the numbers `ks`, put on the list `requests`. -/
def fragRequestCreateCalls (ks : List ℕ) (requests : ListNode) : ListCalls :=
  ks.flatMap fun k =>
    [plain (.malloc [.request k]), plain (.addTail (.request k) requests)]

/-! ## Buckets -/

/-- `packet_bucket_create` -/
def packetBucketCreateCalls : ListCalls :=
  [plain (.malloc [.packets d n]), plain (.init (.packets d n))]

/-- `packet_bucket_destroy_packet` -/
def packetBucketDestroyPacketCalls (fp : FragmentedPacket) : ListCalls :=
  plain (.del (.packet d n fp.packetId)) :: fragmentedPacketDestroyCalls d n fp

/-- Where one is on a `packet_list` when the packets `l` are still to come. -/
def listPosition : List ℕ → ListNode
  | [] => .packets d n
  | pid :: _ => .packet d n pid

/-- The loop of `packet_bucket_periodic_refresh`, which reads `tmp->next` after each packet. -/
def packetBucketRefreshLoopCalls (currentTime : ℤ) : List ℕ → PacketBucket → ListCalls
  | [], _ => []
  | pos :: tmp, pb =>
      match pb.lookup pos with
      | none => []
      | some fp =>
          if currentTime - fp.creationTimestamp ≥ pb.maxPktAge then
            packetBucketDestroyPacketCalls d n fp
              ++ reads (listPosition d n tmp) (listPosition d n tmp.tail)
                :: packetBucketRefreshLoopCalls currentTime tmp (pb.remove fp)
          else
            [reads (listPosition d n tmp) (match tmp with
              | [] => .packet d n pos
              | _ :: rest => listPosition d n rest)]

/-- `packet_bucket_periodic_refresh` -/
def packetBucketPeriodicRefreshCalls (pb : PacketBucket) (currentTime : ℤ) : ListCalls :=
  [reads (.packets d n) (listPosition d n pb.packetList),
    reads (listPosition d n pb.packetList) (listPosition d n pb.packetList.tail)]
  ++ packetBucketRefreshLoopCalls d n currentTime pb.packetList pb

/-- `packet_bucket_add_packet` of the packet `fp`. -/
def packetBucketAddPacketCalls (pb : PacketBucket) (fp : FragmentedPacket) (tSweep : ℤ) :
    ListCalls :=
  [plain (.malloc [.fresh]), plain (.init .fresh)]
    ++ packetBucketPeriodicRefreshCalls d n pb tSweep
    ++ fragmentedPacketCreateCalls d n fp .fresh
    ++ [plain (.addTail (.packet d n fp.packetId) (.packets d n))]

/-- The first part of `packet_bucket_add_fragment`: the packet is created if it is not there. -/
def packetBucketObtainCalls (pb : PacketBucket) (f : Fragment) (tSweep tCreate : ℤ) : ListCalls :=
  packetBucketPeriodicRefreshCalls d n pb tSweep
    ++ match (packetBucketPeriodicRefresh pb [] tSweep).1.lookup f.pid with
      | some _ => []
      | none => fragmentedPacketEmptyCalls d n (pb.target f tSweep tCreate)
          ++ [plain (.addTail (.packet d n f.pid) (.packets d n))]

/-- `packet_bucket_add_fragment`, where the requests have the numbers `ks`. -/
def packetBucketAddFragmentCalls (pb : PacketBucket) (f : Fragment) (tSweep tCreate : ℤ)
    (ks : List ℕ) : ListCalls :=
  packetBucketObtainCalls d n pb f tSweep tCreate
    ++ if f.id < (pb.target f tSweep tCreate).fragNum then
        [plain (.del (.slot d n f.pid f.id)), plain (.memset (.slot d n f.pid f.id))]
          ++ fragRequestCreateCalls ks .fresh
      else []

/-- `packet_bucket_destroy`, which goes through the set from the largest id to the smallest; the
packets are not taken off `packet_list`. -/
def packetBucketDestroyCalls (pb : PacketBucket) : ListCalls :=
  pb.packetSet.elements.reverse.flatMap (fragmentedPacketDestroyCalls d n)
    ++ [plain (.free [.packets d n])]

/-- `packet_bucket_pop_packet` -/
def packetBucketPopPacketCalls (pb : PacketBucket) (pid : ℕ) (tSweep : ℤ) : ListCalls :=
  packetBucketPeriodicRefreshCalls d n pb tSweep
    ++ match (packetBucketPeriodicRefresh pb [] tSweep).1.lookup pid with
      | some fp => packetBucketDestroyPacketCalls d n fp
      | none => []

end Packets

/-! ## The network manager -/

/-- The numbers of the requests on the outgoing queue, in order, and how many have been created. -/
structure ListUse where
  queued : List ℕ
  made : ℕ
  deriving DecidableEq, Repr

/-- The nodes on the outgoing queue, when its requests have the numbers `ks`. -/
def queueNodes : MsgList → List ℕ → List ListNode
  | [], _ => []
  | .fragment node pid id :: q, ks => .slot .outgoing node pid id :: queueNodes q ks
  | .request _ :: q, k :: ks => .request k :: queueNodes q ks
  | .request _ :: q, [] => queueNodes q []

namespace NetworkManager

/-- Whether an endpoint has to be created, with `endpoint_create` and its buckets. -/
def obtainEndpointCalls (nm : NetworkManager) (node : NodeID) : ListCalls :=
  match nm.endpoint node with
  | some _ => []
  | none => packetBucketCreateCalls .incoming node ++ packetBucketCreateCalls .outgoing node

/-- The requests that an arriving fragment causes, numbered from `made` on. -/
def newRequests (nm : NetworkManager) (u : ListUse) (f : Fragment) (tSweep tCreate : ℤ) : List ℕ :=
  List.range' u.made
    (packetBucketAddFragment (nm.endpointFor f.fromNode).incoming f [] []
      tSweep tCreate).2.2.1.length

/-- The calls that an operation makes.  The local variable `requests` takes its place and gives it
back like what is allocated. -/
def listCalls (nm : NetworkManager) (u : ListUse) : NmOp → ListCalls
  | .enqueuePacket src dst data tSweep tCreate =>
      if data.length > 0 then
        let e := nm.endpointFor dst
        nm.obtainEndpointCalls dst
          ++ packetBucketAddPacketCalls .outgoing e.node e.outgoing
            ⟨e.outId, tCreate, e.cut src data⟩ tSweep
          ++ [plain (.splice .fresh .outqueue), plain (.free [.fresh])]
      else []
  | .popMsg => [(.pop .outqueue, .node (queueNodes nm.outqueue u.queued).head?)]
  | .enqueueFragment dst pid fid tSweep =>
      match nm.endpoint dst with
      | none => []
      | some e =>
          packetBucketPeriodicRefreshCalls .outgoing e.node e.outgoing tSweep
            ++ match (packetBucketGetFragment e.outgoing pid fid [] tSweep).2.2 with
              | none => []
              | some f =>
                  (.notadded (.slot .outgoing e.node pid fid), .flag !f.linked)
                    :: if f.linked then []
                      else [plain (.addTail (.slot .outgoing e.node pid fid) .outqueue)]
  | .addFragment f tSweep tCreate =>
      let e := nm.endpointFor f.fromNode
      nm.obtainEndpointCalls f.fromNode ++ [plain (.malloc [.fresh]), plain (.init .fresh)]
        ++ packetBucketAddFragmentCalls .incoming e.node e.incoming f tSweep tCreate
          (nm.newRequests u f tSweep tCreate)
        ++ [plain (.splice .fresh .outqueue), plain (.free [.fresh])]
  | .popPacket src pid _ tSweep =>
      match nm.endpoint src with
      | none => []
      | some e => packetBucketPopPacketCalls .incoming e.node e.incoming pid tSweep

/-- The requests there are after an operation. -/
def listUse (nm : NetworkManager) (u : ListUse) : NmOp → ListUse
  | .popMsg =>
      match nm.outqueue with
      | .request _ :: _ => { u with queued := u.queued.tail }
      | _ => u
  | .addFragment f tSweep tCreate =>
      let ks := nm.newRequests u f tSweep tCreate
      { queued := ks ++ u.queued, made := u.made + ks.length }
  | _ => u

/-- The calls that a run makes, as far as it goes. -/
def runCalls : NetworkManager → ListUse → List NmOp → ListCalls
  | _, _, [] => []
  | nm, u, op :: ops =>
      match networkManagerStep nm op with
      | .ok (nm', _) => nm.listCalls u op ++ runCalls nm' (nm.listUse u op) ops
      | .error _ => []

/-- The requests there are after a run. -/
def runUse (nm : NetworkManager) (u : ListUse) : List NmOp → ListUse
  | [] => u
  | op :: ops =>
      match networkManagerStep nm op with
      | .ok (nm', _) => runUse nm' (nm.listUse u op) ops
      | .error _ => u

/-- `endpoint_destroy` -/
def endpointDestroyCalls (e : Endpoint) : ListCalls :=
  packetBucketDestroyCalls .incoming e.node e.incoming
    ++ packetBucketDestroyCalls .outgoing e.node e.outgoing

/-- Where one is on the queue when the requests `ks` are still to come. -/
def queuePosition : List ℕ → ListNode
  | [] => .outqueue
  | k :: _ => .request k

/-- The rounds of `list_for_each_safe` that destroy the requests `ks`. -/
def requestDestroyCalls : List ℕ → ListCalls
  | [] => []
  | k :: ks =>
      [plain (.del (.request k)), plain (.free [.request k]),
        reads (queuePosition ks) (queuePosition ks.tail)] ++ requestDestroyCalls ks

/-- `network_manager_destroy`, when the requests `ks` are on the queue. -/
def destroyCalls (nm : NetworkManager) (ks : List ℕ) : ListCalls :=
  nm.endpoints.elements.reverse.flatMap endpointDestroyCalls
    ++ [reads .outqueue (queuePosition ks), reads (queuePosition ks) (queuePosition ks.tail)]
    ++ requestDestroyCalls ks ++ [plain (.free [.outqueue])]

/-- `network_manager_create` and the operations after it. -/
def lifetimeCalls (config : NetworkConfig) (ops : List NmOp) : ListCalls :=
  [plain (.malloc [.outqueue]), plain (.init .outqueue)]
    ++ runCalls (networkManagerCreate config) ⟨[], 0⟩ ops

/-- The requests there are after these operations. -/
def lifetimeUse (config : NetworkConfig) (ops : List NmOp) : ListUse :=
  runUse (networkManagerCreate config) ⟨[], 0⟩ ops

end NetworkManager

end PeerStreamer
