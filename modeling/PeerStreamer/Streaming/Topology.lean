import PeerStreamer.Foundation.Run
import PeerStreamer.Streaming.PeerSet
import Mathlib.Data.Rat.Floor

/-!
# The topology

`topology.c`: the peers a node knows, in three sets that share the peer objects.  A peer is in the
`neighbourhood` or in the `swarm_bucket`, and `locked_neighs` refers to neighbours that came by
themselves.  Peers are moved between the first two sets by messages and by `topology_update`, which
also drops inactive neighbours, exchanges some of the others at random, tells those that have come
or gone, and forgets the rest.

What comes from outside is an argument: the sample of the peer sampler, the readings of the clock
and the values of `rand`.  The double `topo_mem` is a rational.  A function answers with the
neighbourhood messages and buffer maps it sends.
-/

namespace PeerStreamer

/-- `enum neighbourhood_msg_t` -/
inductive NeighbourhoodMsg
  | add
  | remove
  | quit
  deriving DecidableEq, Repr

/-- What is sent to a peer. -/
inductive TopologyMessage (ID : Type)
  | bufferMap (dst : ID)
  | neighbourhood (dst : ID) (kind : NeighbourhoodMsg) (metadata : Metadata)
  deriving DecidableEq, Repr

/-- The node a message is sent to. -/
def TopologyMessage.dst {ID : Type} : TopologyMessage ID → ID
  | .bufferMap dst => dst
  | .neighbourhood dst _ _ => dst

/-- `struct topology`, with the peer objects. -/
structure Topology (S : Type) where
  heap : PeerHeap
  neighbourhood : S
  swarmBucket : S
  lockedNeighs : S
  topoMem : ℚ
  topoOut : Bool
  topoIn : Bool
  neighbourhoodTargetSize : ℤ
  toutBmap : ℤ
  myMetadata : Metadata

variable {ID S : Type} [DecidableEq ID] [PeerSet ID S]

/-! ## Sets and objects -/

/-- `peerset_add_peer`: a new peer object, unless the id is there. -/
def peersetAddPeer (h : PeerHeap) (s : S) (i : ID) (now : ℤ) : PeerHeap × S :=
  if peersetCheck s i then (h, s) else (h.alloc now, pushPeer s ⟨h.next, i⟩)

/-- `peerset_remove_peer`: the peer is taken out and freed. -/
def peersetRemovePeer (h : PeerHeap) (s : S) (i : ID) : Eval (PeerHeap × S) :=
  match popPeer s i with
  | (s, none) => return (h, s)
  | (s, some p) => do
      let h ← h.free p.ref
      return (h, s)

/-- `peerset_clear` and `peerset_destroy`: every peer is freed. -/
def peersetFreeAll (h : PeerHeap) : List (Peer ID) → Eval PeerHeap
  | [] => return h
  | p :: ps => do
      let h ← h.free p.ref
      peersetFreeAll h ps

/-- `peerset_create_reference_copy` -/
def peersetCreateReferenceCopy (s : S) : S := (getPeers s).foldl pushPeer PeerSet.init

/-- The loop of `peerset_destroy_reference_copy`, which pops the first peer until there is none;
`n` is the size at the start. -/
def peersetPopAll (s : S) : ℕ → S
  | 0 => s
  | n + 1 =>
      match getPeers s with
      | [] => s
      | p :: _ => peersetPopAll (popPeer s p.id).1 n

/-- `peerset_destroy_reference_copy` -/
def peersetDestroyReferenceCopy (h : PeerHeap) (s : S) : Eval PeerHeap :=
  peersetFreeAll h (getPeers (peersetPopAll s (peersetSize s)))

namespace Topology

/-! ## Membership -/

/-- `update_metadata`, with the chunk buffer size of the instance, or 0 for a source. -/
def updateMetadata (t : Topology S) (cbSize : ℕ) : Topology S :=
  { t with myMetadata := ⟨cbSize % 2 ^ 16, peersetSize t.neighbourhood % 2 ^ 8⟩ }

/-- `topology_init`, with the configured values of `neighbourhood_size` and `peer_timeout`. -/
def topologyInit (neighbourhoodSize peerTimeout : ℤ) (cbSize : ℕ) : Topology S :=
  { heap := .empty
    neighbourhood := PeerSet.init
    swarmBucket := PeerSet.init
    lockedNeighs := PeerSet.init
    topoMem := 7 / 10
    topoOut := true
    topoIn := true
    neighbourhoodTargetSize := neighbourhoodSize
    toutBmap := peerTimeout * 1000000
    myMetadata := ⟨0, 0⟩ : Topology S }.updateMetadata cbSize

/-- `topology_get_peer` -/
def topologyGetPeer (t : Topology S) (i : ID) : Option (Peer ID) :=
  (peersetGetPeer t.swarmBucket i).or (peersetGetPeer t.neighbourhood i)

/-- Adding a peer to the swarm bucket. -/
def addToSwarm (t : Topology S) (i : ID) (now : ℤ) : Topology S :=
  let (heap, swarmBucket) := peersetAddPeer t.heap t.swarmBucket i now
  { t with heap, swarmBucket }

/-- `topology_node_insert` -/
def topologyNodeInsert (t : Topology S) (i : ID) (now : ℤ) : Topology S :=
  if t.topologyGetPeer i = none then t.addToSwarm i now else t

/-- `neighbourhood_add_peer`: the peer is moved from the swarm bucket, or a new one is created and
locked. -/
def neighbourhoodAddPeer (t : Topology S) (i : ID) (now : ℤ) :
    Eval (Topology S × Peer ID × TopologyMessage ID) :=
  match popPeer t.swarmBucket i with
  | (swarmBucket, some p) =>
      return ({ t with swarmBucket, neighbourhood := pushPeer t.neighbourhood p }, p, .bufferMap i)
  | (swarmBucket, none) =>
      let (heap, neighbourhood) := peersetAddPeer t.heap t.neighbourhood i now
      match peersetGetPeer neighbourhood i with
      | none => .error .nullDereference
      | some p =>
          return ({ t with
            heap, swarmBucket, neighbourhood, lockedNeighs := pushPeer t.lockedNeighs p }, p,
            .bufferMap i)

/-- `neighbourhood_remove_peer` -/
def neighbourhoodRemovePeer (t : Topology S) (i : ID) : Topology S :=
  let (neighbourhood, p) := popPeer t.neighbourhood i
  { t with
    neighbourhood
    swarmBucket := match p with
      | some p => pushPeer t.swarmBucket p
      | none => t.swarmBucket
    lockedNeighs := (popPeer t.lockedNeighs i).1 }

/-- `topology_remove_peer` -/
def topologyRemovePeer (t : Topology S) (i : ID) : Eval (Topology S) := do
  let (heap, neighbourhood) ← peersetRemovePeer t.heap t.neighbourhood i
  let (heap, swarmBucket) ← peersetRemovePeer heap t.swarmBucket i
  return { t with heap, neighbourhood, swarmBucket, lockedNeighs := (popPeer t.lockedNeighs i).1 }

/-- `peer_set_metadata` -/
def peerSetMetadata (t : Topology S) (p : Peer ID) (m : Metadata) : Eval (Topology S) := do
  let d ← t.heap.read p.ref
  let heap ← t.heap.write p.ref { d with metadata := some m }
  return { t with heap }

/-- `neighbourhood_message_parse`: the type byte, and the metadata if the message is long enough to
hold them. -/
def neighbourhoodMessageParse (t : Topology S) (source : ID) (type : UInt8) (m : Option Metadata)
    (now : ℤ) : Eval (Topology S × List (TopologyMessage ID)) :=
  if type = 0 then do
    let (t, p, sent) ← t.neighbourhoodAddPeer source now
    match m with
    | none => return (t, [sent])
    | some m =>
        let t ← t.peerSetMetadata p m
        return (t, [sent])
  else if type = 1 then return (t.neighbourhoodRemovePeer source, [])
  else if type = 2 then do
    let t ← t.topologyRemovePeer source
    return (t, [])
  else return (t, [])

/-- The branch of `topology_message_parse` for neighbourhood messages; those of the peer sampler
are for the sampler alone. -/
def handleNeighbourhoodMessage (t : Topology S) (source : ID) (type : UInt8) (m : Option Metadata)
    (now : ℤ) : Eval (Topology S × List (TopologyMessage ID)) :=
  if t.topoIn then t.neighbourhoodMessageParse source type m now else return (t, [])

/-- `gettimeofday(peer_bmap_timestamp(p), NULL)`, by which the trader notes that it has heard from
a peer. -/
def peerSetBmapTimestamp (t : Topology S) (p : Peer ID) (now : ℤ) : Eval (Topology S) := do
  let d ← t.heap.read p.ref
  let heap ← t.heap.write p.ref { d with bmapTimestamp := now }
  return { t with heap }

/-- `neighbourhood_send_msg`, which reads the id of the peer. -/
def neighbourhoodSendMsg (t : Topology S) (p : Peer ID) (kind : NeighbourhoodMsg) :
    Eval (TopologyMessage ID) := do
  let _ ← t.heap.read p.ref
  return .neighbourhood p.id kind t.myMetadata

/-- `nodeid_to_peer`: the peer is looked up, and added to the neighbourhood if `reg` is set. -/
def nodeidToPeer (t : Topology S) (i : ID) (reg : Bool) (now : ℤ) :
    Eval (Topology S × Option (Peer ID) × List (TopologyMessage ID)) :=
  if t.topologyGetPeer i = none ∧ reg then do
    let t := t.topologyNodeInsert i now
    let (t, _, sent) ← t.neighbourhoodAddPeer i now
    match t.topologyGetPeer i with
    | none => .error .nullDereference
    | some p =>
        if t.topoOut then
          let told ← t.neighbourhoodSendMsg p .add
          return (t, some p, [sent, told])
        else return (t, some p, [sent])
  else return (t, t.topologyGetPeer i, [])

/-! ## The update -/

/-- `topology_sample_peers` -/
def topologySamplePeers (t : Topology S) (now : ℤ) : List (ID × Metadata) → Eval (Topology S)
  | [] => return t
  | (i, m) :: sample => do
      let t := if t.topologyGetPeer i = none then t.addToSwarm i now else t
      match t.topologyGetPeer i with
      | none => .error .nullDereference
      | some p =>
          let t ← t.peerSetMetadata p m
          t.topologySamplePeers now sample

/-- The test of `neighbourhood_drop_unactives`. -/
def inactive (d : PeerData) (told : ℤ) : Bool :=
  (d.bmapTimestamp = 0 && d.creationTimestamp < told)
    || (d.bmapTimestamp ≠ 0 && d.bmapTimestamp < told)

/-- The loop of `neighbourhood_drop_unactives` over the positions `i`, of which there are at most
as many as there were neighbours at the start.  A removal moves the later peers forward. -/
def dropUnactivesLoop (t : Topology S) (told : ℤ) : List ℕ → Eval (Topology S)
  | [] => return t
  | i :: is =>
      match (getPeers t.neighbourhood)[i]? with
      | none => return t
      | some p => do
          let d ← t.heap.read p.ref
          let t ← if inactive d told then t.topologyRemovePeer p.id else pure t
          t.dropUnactivesLoop told is

/-- `neighbourhood_drop_unactives` -/
def neighbourhoodDropUnactives (t : Topology S) (tnow bmapTimeout : ℤ) : Eval (Topology S) :=
  t.dropUnactivesLoop (tnow - bmapTimeout) (List.range (peersetSize t.neighbourhood))

end Topology

/-- The largest value of `rand`. -/
def RAND_MAX : ℕ := 2 ^ 31 - 1

/-- A round of `array_shuffle`: the elements at `i` and at a random position up to `i` change
places. -/
def arrayShuffleStep {α : Type} (rand : ℕ → Fin (RAND_MAX + 1)) (b : List α) (i : ℕ) : List α :=
  let newpos := rand i * (i + 1) / (RAND_MAX + 1)
  match b[i]?, b[newpos]? with
  | some x, some y => (b.set newpos x).set i y
  | _, _ => b

/-- `array_shuffle`, with `rand i` the value of `rand()` in the round for `i`. -/
def arrayShuffle {α : Type} (rand : ℕ → Fin (RAND_MAX + 1)) (b : List α) : List α :=
  ((List.range b.length).tail.reverse).foldl (arrayShuffleStep rand) b

/-- The loop of `topology_move_peers` over the peers to be moved. -/
def topologyMovePeersLoop (s₁ s₂ : S) : List (Peer ID) → Eval (S × S)
  | [] => return (s₁, s₂)
  | q :: qs =>
      match popPeer s₁ q.id with
      | (_, none) => .error .nullDereference
      | (s₁, some p) => topologyMovePeersLoop s₁ (pushPeer s₂ p) qs

/-- `topology_move_peers` for `PEER_CHOICE_RANDOM` and without a filter, as it is called. -/
def topologyMovePeers (s₁ s₂ : S) (num : ℤ) (rand : ℕ → Fin (RAND_MAX + 1)) : Eval (S × S) :=
  topologyMovePeersLoop s₁ s₂ ((arrayShuffle rand (getPeers s₁)).take num.toNat)

namespace Topology

/-- `topology_update_random` -/
def topologyUpdateRandom (t : Topology S) (discard add : ℕ → Fin (RAND_MAX + 1)) :
    Eval (Topology S) := do
  let discardNum := ⌊(1 - t.topoMem) * peersetSize t.neighbourhood⌋
  let (neighbourhood, swarmBucket) ←
    topologyMovePeers t.neighbourhood t.swarmBucket discardNum discard
  let othersNum := max (t.neighbourhoodTargetSize - peersetSize neighbourhood) 0
  let (swarmBucket, neighbourhood) ← topologyMovePeers swarmBucket neighbourhood othersNum add
  return { t with neighbourhood, swarmBucket }

/-- The messages to those of `ps` that are not in `other`. -/
def signal (t : Topology S) (kind : NeighbourhoodMsg) (other : S) :
    List (Peer ID) → Eval (List (TopologyMessage ID))
  | [] => return []
  | p :: ps =>
      if peersetCheck other p.id then t.signal kind other ps
      else do
        let sent ← t.neighbourhoodSendMsg p kind
        let rest ← t.signal kind other ps
        return sent :: rest

/-- `topology_signal_change` -/
def topologySignalChange (t : Topology S) (oldNeighs : S) : Eval (List (TopologyMessage ID)) :=
  if t.topoOut then do
    let added ← t.signal .add oldNeighs (getPeers t.neighbourhood)
    let removed ← t.signal .remove t.neighbourhood (getPeers oldNeighs)
    return added ++ removed
  else return []

/-- What one update gets from outside. -/
structure UpdateInput (ID : Type) where
  cbSize : ℕ
  sample : List (ID × Metadata)
  tSample : ℤ
  tnow : ℤ
  discard : ℕ → Fin (RAND_MAX + 1)
  add : ℕ → Fin (RAND_MAX + 1)

/-- The first part of `topology_update`, up to the drop of inactive peers. -/
def topologyRefresh (t : Topology S) (u : UpdateInput ID) : Eval (Topology S) := do
  let t ← (t.updateMetadata u.cbSize).topologySamplePeers u.tSample u.sample
  if t.toutBmap ≠ 0 then t.neighbourhoodDropUnactives u.tnow t.toutBmap else return t

/-- The second part: some neighbours are exchanged, those that have come or gone are told, and the
swarm bucket is forgotten. -/
def topologyExchange (t : Topology S) (u : UpdateInput ID) :
    Eval (Topology S × List (TopologyMessage ID)) := do
  let oldNeighs := peersetCreateReferenceCopy t.neighbourhood
  let t ← t.topologyUpdateRandom u.discard u.add
  let sent ← t.topologySignalChange oldNeighs
  let heap ← peersetDestroyReferenceCopy t.heap oldNeighs
  let lockedNeighs := (getPeers t.swarmBucket).foldl (fun s p => (popPeer s p.id).1) t.lockedNeighs
  let heap ← peersetFreeAll heap (getPeers t.swarmBucket)
  return ({ t with heap, lockedNeighs, swarmBucket := PeerSet.clear t.swarmBucket }, sent)

/-- `topology_update` -/
def topologyUpdate (t : Topology S) (u : UpdateInput ID) :
    Eval (Topology S × List (TopologyMessage ID)) := do
  let t ← t.topologyRefresh u
  t.topologyExchange u

end Topology

end PeerStreamer
