import PeerStreamer.Streaming.Measures
import PeerStreamer.Streaming.Output
import PeerStreamer.Streaming.StreamingTimers
import PeerStreamer.Streaming.Topology
import PeerStreamer.Streaming.Trader

/-!
# The instance

`psinstance.c`: the instance of a peer or a source, which waits for data, handles what it receives,
makes offers when it is time to and updates its topology every ten rounds.

What comes from outside one round is a `PollInput`: the readings of the clock, the answer of
`wait4data`, the message received, what the scheduler picks and the chunk read from the input.
-/

namespace PeerStreamer

/-- `struct psinstance`.  It is a source if there is no `chunkOut`; `noFds` says that the first
descriptor of the input is -1. -/
structure PsInstance (B ID S : Type) where
  chunkOut : Option ChunkOutput
  measure : ChunkIntervalEstimate
  topology : Topology S
  trader : ChunkTrader B ID
  noFds : Bool
  timers : StreamingTimers
  chunkTimeInterval : ℤ
  chunkOfferInterval : ℤ

/-- What an instance does towards others: the messages it sends and the chunks it writes. -/
inductive PsEffect (C ID : Type)
  | topology (m : TopologyMessage ID)
  | trader (m : TraderMessage ID C)
  | written (c : Chunk)
  deriving DecidableEq, Repr

/-- The signalling messages, as `parseSignaling` gives them. -/
inductive Signal (C : Type)
  | bufferMap
  | offer (cset : C) (maxDeliver : ℤ) (transId : UInt16)
  | accept (cset : C) (transId : UInt16)
  | ack (transId : UInt16)

/-- What `recv_from_peer` gives, by the type of the message. -/
inductive PsReceived (C ID : Type)
  | nothing
  | neighbourhood (source : ID) (type : UInt8) (m : Option Metadata)
  | sampler
  | chunk (source : ID) (msg : Option (Chunk × UInt16))
  | signalling (source : ID) (sig : Option (Signal C))
  | unknown

variable {B C ID S : Type}

namespace PsInstance

/-- `psinstance_is_source` -/
def isSource (ps : PsInstance B ID S) : Bool := ps.chunkOut.isNone

/-- An instance as `psinstance_create` leaves it, with the parts it creates; `now` is the time. -/
def psinstanceCreate (chunkOut : Option ChunkOutput) (topology : Topology S)
    (trader : ChunkTrader B ID) (noFds : Bool) (now : Timeval) : PsInstance B ID S where
  chunkOut := chunkOut
  measure := measuresCreate
  topology := topology
  trader := trader
  noFds := noFds
  timers := streamingTimersInit now (1000000 / 25)
  chunkTimeInterval := 0
  chunkOfferInterval := 1000000 / 25

section Interval

variable [PeerSet ID S]

/-- `trader_peer_neigh_size` -/
def traderPeerNeighSize (t : Topology S) (p : Peer ID) : Eval ℚ := do
  let d ← t.heap.read p.ref
  match d.metadata with
  | none => .error .nullDereference
  | some m => return if m.neighSize > 0 then m.neighSize else 1

/-- `peer_evaluation_turbo` -/
def peerEvaluationTurbo (t : Topology S) (p : Peer ID) : Eval ℚ := do
  let size ← traderPeerNeighSize t p
  return 1 / size

/-- The load that `chunk_trader_offer_interval` sums up. -/
def offerLoad (t : Topology S) : List (Peer ID) → Eval ℚ
  | [] => return 0
  | p :: ps => do
      let x ← peerEvaluationTurbo t p
      let load ← offerLoad t ps
      return x + load

/-- `chunk_trader_offer_interval`; the conversion to `suseconds_t` truncates. -/
def chunkTraderOfferInterval (t : Topology S) (ct : ChunkTrader B ID)
    (measure : ChunkIntervalEstimate) : Eval ℤ := do
  let msInt := (chunkIntervalMeasure measure : ℚ) * (3 / 4)
  let msInt ← match ct.distType with
    | .uniform => pure msInt
    | .turbo => do
        let load ← offerLoad t (getPeers t.neighbourhood)
        finiteQuotient msInt load
  let interval ← finiteQuotient msInt ct.offerPerPeriod
  return if 0 ≤ interval then ⌊interval⌋ else ⌈interval⌉

end Interval

variable [ChunkBuffer B] [ChunkIDSet C]

/-- The branch of `psinstance_handle_msg` for chunk messages. -/
def handleChunk (ps : PsInstance B ID S) (source : ID) (msg : Option (Chunk × UInt16)) :
    Eval (PsInstance B ID S × List (PsEffect C ID)) :=
  match ps.chunkOut with
  | none => return (ps, [])
  | some chunkOut => do
      let (trader, c, sent) ← ps.trader.chunkTraderParseChunk (C := C) source msg
      let sent := sent.map .trader
      match c with
      | none => return ({ ps with trader }, sent)
      | some c =>
          let (trader, res) ← trader.chunkTraderAddChunk c
          if res = 0 then
            let measure ← regChunkReceive ps.measure c
            let (chunkOut, _, written) ← outputDeliver chunkOut c
            return ({ ps with trader, measure, chunkOut := some chunkOut },
              sent ++ written.map .written)
          else return ({ ps with trader }, sent)

variable [DecidableEq ID] [PeerSet ID S]

/-- `chunk_trader_msg_parse`: the signals of nodes that are not known are ignored, and those of
others, except for accepts, note that the peer has been heard from. -/
def chunkTraderMsgParse (clk : Clock) (ps : PsInstance B ID S) (source : ID)
    (sig : Option (Signal C)) (now : ℤ) : Eval (PsInstance B ID S × List (PsEffect C ID)) := do
  let (topology, p, _) ← ps.topology.nodeidToPeer source false now
  match p, sig with
  | some p, some .bufferMap => do
      let topology ← topology.peerSetBmapTimestamp p now
      return ({ ps with topology }, [])
  | some _, some (.offer cset maxDeliver transId) => do
      let (topology, p, told) ← topology.nodeidToPeer source true now
      match p with
      | none => .error .nullDereference
      | some p =>
          let topology ← topology.peerSetBmapTimestamp p now
          let s ← ps.trader.chunkTraderHandleOffer clk source cset maxDeliver
          return ({ ps with topology, trader := s.ct },
            told.map .topology ++ [.trader (.accept source s.accSet transId)])
  | some _, some (.accept cset transId) => do
      let (trader, sent) ← ps.trader.chunkTraderHandleAccept clk source cset transId
      return ({ ps with trader }, sent.map .trader)
  | some p, some (.ack transId) => do
      let topology ← topology.peerSetBmapTimestamp p now
      return ({ ps with topology, trader := ps.trader.chunkTraderHandleAck transId }, [])
  | _, _ => return (ps, [])

/-- `psinstance_handle_msg` -/
def psinstanceHandleMsg (clk : Clock) (ps : PsInstance B ID S) (received : PsReceived C ID)
    (now : ℤ) : Eval (PsInstance B ID S × List (PsEffect C ID)) :=
  match received with
  | .neighbourhood source type m => do
      let (topology, sent) ← ps.topology.handleNeighbourhoodMessage source type m now
      return ({ ps with topology }, sent.map .topology)
  | .chunk source msg => ps.handleChunk source msg
  | .signalling source sig => ps.chunkTraderMsgParse clk source sig now
  | .nothing | .sampler | .unknown => return (ps, [])

/-- `psinstance_inject_chunk`, with the chunk that `input_chunk` gives and the interval it sets, and
the pairs the scheduler picks to push it to. -/
def psinstanceInjectChunk (ps : PsInstance B ID S) (newChunk : Option Chunk) (interval : ℤ)
    (pairs : List (ID × ℤ)) : Eval (PsInstance B ID S × List (PsEffect C ID)) :=
  if ps.isSource then
    let ps := { ps with chunkTimeInterval := interval }
    match newChunk with
    | none => return (ps, [])
    | some c => do
        let (trader, res) ← ps.trader.chunkTraderAddChunk c
        if res = 0 then
          let sent ← ChunkTrader.peerChunkSend (C := C) trader.cb INVALID_TRANSID pairs
          return ({ ps with trader }, sent.map .trader)
        else return ({ ps with trader }, [])
  else return (ps, [])

end PsInstance

/-- What one call of `psinstance_poll` gets from outside. -/
structure PollInput (C ID : Type) where
  delta : ℤ
  tnow : Timeval
  dataState : ℤ
  currentEpoch : Timeval
  received : PsReceived C ID
  now : ℤ
  picks : ℕ → List (ID × ℤ)
  newChunk : Option Chunk
  interval : ℤ
  pushed : List (ID × ℤ)
  update : Topology.UpdateInput ID

namespace PsInstance

variable [ChunkBuffer B] [ChunkIDSet C] [DecidableEq ID] [PeerSet ID S]

/-- What is done in one round, by the action it is time for. -/
def act (clk : Clock) (ps : PsInstance B ID S) (u : PollInput C ID) :
    StreamingAction → Eval (PsInstance B ID S × List (PsEffect C ID))
  | .offer => do
      let (trader, sent) := ps.trader.chunkTraderSendOffer (C := C) clk u.picks
      let interval ← chunkTraderOfferInterval ps.topology trader ps.measure
      return ({ ps with
        trader, chunkOfferInterval := interval, timers := ps.timers.updateOfferTime interval },
        sent.map .trader)
  | .inject => do
      let (ps, sent) ← ps.psinstanceInjectChunk (C := C) u.newChunk u.interval u.pushed
      return ({ ps with timers := ps.timers.updateChunkTime ps.chunkTimeInterval }, sent)
  | .parseMsg => ps.psinstanceHandleMsg clk u.received u.now
  | .noAction => return (ps, [])

/-- The timers while `psinstance_poll` waits. -/
def waiting (ps : PsInstance B ID S) (u : PollInput C ID) : StreamingTimers :=
  ps.timers.setTimeout u.delta (ps.isSource && ps.noFds) u.tnow

/-- The action that `psinstance_poll` takes. -/
def pollAction (ps : PsInstance B ID S) (u : PollInput C ID) : StreamingAction :=
  (ps.waiting u).action u.dataState ps.isSource u.currentEpoch

/-- `psinstance_poll` -/
def psinstancePoll (clk : Clock) (ps : PsInstance B ID S) (u : PollInput C ID) :
    Eval (PsInstance B ID S × List (PsEffect C ID)) := do
  let (timers, action) := (ps.waiting u).stateHandler u.dataState ps.isSource u.currentEpoch
  let (ps, sent) ← act clk { ps with timers } u action
  let (timers, flag) := ps.timers.updateFlag
  if flag then
    let (topology, told) ← ps.topology.topologyUpdate u.update
    return ({ ps with timers, topology }, sent ++ told.map .topology)
  else return ({ ps with timers }, sent)

end PsInstance

end PeerStreamer
