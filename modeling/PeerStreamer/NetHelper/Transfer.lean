import PeerStreamer.NetHelper.Receiving

/-!
# A transfer between two nodes

One node sends packets to another over a network that loses, delays and reorders datagrams but does
not duplicate them.  Each node has its network manager; the datagrams under way are two lists, and
an action takes any of them.  What is popped from a queue is put on the network by `transmit` and
`request`, and a datagram taken off it is handled as `recv_from_peer` handles it, except that a
packet reported ready may be popped at any later time, as long as nothing else has been reported
about it.

A message reaches the node its `to` is the address of.  The requests for lost fragments are made
with the `from` and `to` of the fragment that was received, so that they claim to come from the
sender and to be for the receiver itself: `request` has an argument that says whether the network
carries the request to the sender all the same, and otherwise it is lost.

An action that is not possible — to deliver a datagram that is not under way, to pop a packet that
is not ready — changes nothing.
-/

namespace PeerStreamer

/-- The two nodes and what they are configured with, with fragments of at least one byte;
`bufferSize` is that of the buffer the receiver pops packets into. -/
structure Link where
  senderNode : NodeID
  receiverNode : NodeID
  senderConfig : NetworkConfig
  receiverConfig : NetworkConfig
  bufferSize : ℕ
  senderFrags : 1 ≤ senderConfig.fragSizeInt
  receiverFrags : 1 ≤ receiverConfig.fragSizeInt

/-- The state of a transfer: the two managers, the datagrams under way in each direction, and the
ids of the packets that were ready when the receiver last heard of them. -/
structure Transfer where
  sender : NetworkManager
  receiver : NetworkManager
  toReceiver : List Bytes
  toSender : List Bytes
  ready : List ℕ
  deriving DecidableEq

/-- What can happen. -/
inductive Action
  | enqueue (data : Bytes) (tSweep tCreate : ℤ)
  | transmit
  | deliver (datagram : Bytes) (tSweep tCreate : ℤ)
  | lose (datagram : Bytes)
  | request (forwarded : Bool)
  | answer (datagram : Bytes) (tSweep tCreate : ℤ)
  | loseRequest (datagram : Bytes)
  | pop (pid : ℕ) (tSweep : ℤ)

/-- A packet popped by the receiver: its id, the return code, the bytes and the size. -/
abbrev Handout : Type := ℕ × ℤ × Bytes × ℕ

/-- The datagram `net_msg_send` makes of a message, in a buffer of `frag_size + 100` bytes. -/
def messageDatagram (ic : IntCoding) (fragSize : ℕ) : NetMessage → Bytes
  | .fragment f => fragmentDatagram ic fragSize f
  | .fragRequest fr => (fragRequestEncode ic fr (fragSize + 100)).getD []

/-- The message is from one node and for another, by their addresses. -/
def NetMessage.Goes (fromNode toNode : NodeID) (msg : NetMessage) : Bool :=
  nodeidEqual msg.netMsg.fromNode fromNode && nodeidEqual msg.netMsg.toNode toNode

namespace Transfer

/-- Nothing has been sent yet. -/
def init (l : Link) : Transfer :=
  ⟨networkManagerCreate l.senderConfig, networkManagerCreate l.receiverConfig, [], [], []⟩

/-- One action, with the packet handed out by it.  A pop that finds no packet (-2) hands out
nothing. -/
def step (ic : IntCoding) (l : Link) (s : Transfer) : Action → Eval (Transfer × Option Handout)
  | .enqueue data tSweep tCreate => do
      let (sender, _) ← networkManagerEnqueueOutgoingPacket s.sender l.senderNode l.receiverNode
        data tSweep tCreate
      return ({ s with sender }, none)
  | .transmit => do
      let (sender, m) ← networkManagerPopOutgoingNetMsg s.sender
      let sent := (m.filter (·.Goes l.senderNode l.receiverNode)).map
        (messageDatagram ic s.sender.fragSize)
      return ({ s with sender, toReceiver := s.toReceiver ++ sent.toList }, none)
  | .deliver datagram tSweep tCreate =>
      if datagram ∈ s.toReceiver then do
        let (receiver, arrived) ← handleDatagram ic l.receiverNode l.senderNode s.receiver
          datagram tSweep tCreate
        let toReceiver := s.toReceiver.erase datagram
        let ready := match arrived with
          | none => s.ready
          | some (pid, state) =>
              let others := s.ready.filter (· ≠ pid)
              if state = .ready then pid :: others else others
        return ({ s with receiver, toReceiver, ready }, none)
      else return (s, none)
  | .lose datagram => return ({ s with toReceiver := s.toReceiver.erase datagram }, none)
  | .request forwarded => do
      let (receiver, m) ← networkManagerPopOutgoingNetMsg s.receiver
      let sent := (m.filter fun msg => forwarded || msg.Goes l.receiverNode l.senderNode).map
        (messageDatagram ic s.receiver.fragSize)
      return ({ s with receiver, toSender := s.toSender ++ sent.toList }, none)
  | .answer datagram tSweep tCreate =>
      if datagram ∈ s.toSender then do
        let (sender, _) ← handleDatagram ic l.senderNode l.receiverNode s.sender
          datagram tSweep tCreate
        return ({ s with sender, toSender := s.toSender.erase datagram }, none)
      else return (s, none)
  | .loseRequest datagram => return ({ s with toSender := s.toSender.erase datagram }, none)
  | .pop pid tSweep =>
      if pid ∈ s.ready then
        let (receiver, res, bytes, size) :=
          networkManagerPopIncomingPacket s.receiver l.senderNode pid l.bufferSize tSweep
        let handout := if res = -2 then none else some (pid, res, bytes, size)
        return ({ s with receiver, ready := s.ready.filter (· ≠ pid) }, handout)
      else return (s, none)

end Transfer

/-! ## Histories -/

/-- The packet an action enqueues. -/
def Action.packet : Action → Option Bytes
  | .enqueue data _ _ => if 0 < data.length then some data else none
  | _ => none

/-- The packets enqueued, in order: the one with id `i` is the `i`-th. -/
def enqueued (as : List Action) : List Bytes := as.filterMap Action.packet

/-- The packets handed out. -/
def handouts (outs : List (Option Handout)) : List Handout := outs.filterMap id

lemma enqueued_append (as as' : List Action) :
    enqueued (as ++ as') = enqueued as ++ enqueued as' := List.filterMap_append

/-- No packet enqueued is empty. -/
lemma enqueued_pos {as : List Action} {data : Bytes} (h : data ∈ enqueued as) :
    0 < data.length := by
  obtain ⟨a, -, ha⟩ := List.mem_filterMap.mp h
  cases a with
  | enqueue data' tSweep tCreate =>
      rw [Action.packet] at ha
      split_ifs at ha with hpos
      · obtain rfl := Option.some.inj ha
        exact hpos
  | _ => cases ha

lemma handouts_append (outs outs' : List (Option Handout)) :
    handouts (outs ++ outs') = handouts outs ++ handouts outs' := List.filterMap_append

end PeerStreamer
