import PeerStreamer.Foundation.Double
import PeerStreamer.Foundation.Timeval
import PeerStreamer.NetHelper.Runs

/-!
# The shaper and the sending loop

`network_shaper.c`, and `net_helper_send_attempt` of `net_helper-x.c`, which asks the shaper when
the next message may be sent, sends it and tells the shaper so.

What is told is a size of zero, which `network_shaper_register_sent_bytes` refuses: an attempt never
changes the shaper (`netHelperSendAttempt_eq`), and the interval it answers with is
`LocalNode.sendingInterval`.

How `network_shaper_register_sent_bytes` rounds the results of its operations is a parameter, which
`toDouble` is for the code and `id` for exact arithmetic.
-/

namespace PeerStreamer

/-! ## The shaper -/

/-- `struct network_shaper` -/
structure NetworkShaper where
  multiplyer : ℚ
  alphaMemory : ℚ
  estimatedByteratePersecond : ℚ
  nextSendingEvent : Timeval
  lastUpdateTime : Timeval
  deriving DecidableEq

def DEFAULT_BYTERATE : ℚ := 1000000
def DEFAULT_BYTERATE_MULTIPLYER : ℚ := 8

/-- `network_shaper_create`, with the two values the configuration may give and the last reading of
the clock for each time. -/
def networkShaperCreate (byterate byterateMultiplyer : Option ℚ) (tUpdate tNext : Timeval) :
    NetworkShaper where
  multiplyer := byterateMultiplyer.getD DEFAULT_BYTERATE_MULTIPLYER
  alphaMemory := 9 / 10
  estimatedByteratePersecond := byterate.getD DEFAULT_BYTERATE
  nextSendingEvent := tNext
  lastUpdateTime := tUpdate

/-- `network_shaper_next_sending_interval` -/
def networkShaperNextSendingInterval (ns : NetworkShaper) (now : Timeval) : Timeval :=
  if now.timercmpLt ns.nextSendingEvent then ns.nextSendingEvent.timersub now else ⟨0, 0⟩

/-- The bytes a second the shaper lets through. -/
def NetworkShaper.rate (ns : NetworkShaper) : ℚ := ns.multiplyer * ns.estimatedByteratePersecond

/-- `network_shaper_register_sent_bytes`; `secs` is a `uint32_t`, and `rnd` what the result of an
operation on `double`s is stored as. -/
def networkShaperRegisterSentBytes (rnd : ℚ → ℚ) (ns : NetworkShaper) (dataSize : ℕ) :
    Eval (NetworkShaper × ℤ) :=
  if dataSize > 0 then do
    let quotient ← finiteQuotient (rnd dataSize) (rnd ns.rate)
    let period := rnd quotient
    let secs := truncate period % 2 ^ 32
    let next := ns.nextSendingEvent
    return ({ ns with nextSendingEvent :=
      ⟨next.sec + secs, next.usec + truncate (rnd (rnd (period - secs) * 1000000))⟩ }, 0)
  else return (ns, -1)

/-- `network_shaper_update_bitrate` -/
def networkShaperUpdateBitrate (ns : NetworkShaper) (dataSize : ℕ) (now : Timeval) :
    Eval (NetworkShaper × ℤ) :=
  if dataSize > 0 then do
    let interval := now.timersub ns.lastUpdateTime
    let period : ℚ := interval.sec + (interval.usec : ℚ) / 1000000
    let recent ← finiteQuotient ((1 - ns.alphaMemory) * dataSize) period
    return ({ ns with
      estimatedByteratePersecond := ns.alphaMemory * ns.estimatedByteratePersecond + recent
      lastUpdateTime := now }, 0)
  else return (ns, -1)

/-! ## Sending a message -/

def FD_SETSIZE : ℕ := 1024

/-- A descriptor that can be watched. -/
abbrev Descriptor := Fin FD_SETSIZE

/-- The `struct nodeID` of the local node, with what `net_helper_init` adds to its address. -/
structure LocalNode where
  fd : Descriptor
  nm : NetworkManager
  shaper : NetworkShaper
  sendingBufferLen : ℕ

variable (ic : IntCoding)

/-- `net_msg_send`: the datagram handed to `sendto`, none if it does not fit into the buffer. -/
def netMsgSend (msg : NetMessage) (buffLen : ℕ) : Option Bytes :=
  match msg with
  | .fragment f => fragmentEncode ic f buffLen
  | .fragRequest fr => fragRequestEncode ic fr buffLen

/-- `net_helper_send_msg` -/
def netHelperSendMsg (s : LocalNode) (msg : NetMessage) : Option Bytes :=
  netMsgSend ic msg s.sendingBufferLen

/-- `net_helper_send_attempt`, with its two readings of the clock: the node, the interval, and the
datagram sent. -/
def netHelperSendAttempt (s : LocalNode) (now now' : Timeval) :
    Eval (LocalNode × Timeval × Option Bytes) :=
  if networkManagerOutgoingQueueReady s.nm then
    let interval := networkShaperNextSendingInterval s.shaper now
    if interval.sec = 0 ∧ interval.usec = 0 then do
      let (nm, msg) ← networkManagerPopOutgoingNetMsg s.nm
      match msg with
      | none => .error .nullDereference
      | some msg =>
          let sent := netHelperSendMsg ic s msg
          let (shaper, _) ← networkShaperRegisterSentBytes toDouble s.shaper 0
          return ({ s with nm, shaper }, networkShaperNextSendingInterval shaper now', sent)
    else return (s, interval, none)
  else return (s, ⟨0, 1000⟩, none)

/-! ## What the queue holds -/

/-- The message behind a queue element, as a pop hands it out. -/
def NetworkManager.message (nm : NetworkManager) : QueueElem → Option NetMessage
  | .fragment dst pid id =>
      (nm.slot dst pid id).map fun f => .fragment { f with linked := false }
  | .request r => some (.fragRequest { r with linked := false })

section Queue

variable {nm : NetworkManager} {el : QueueElem} {q : MsgList}

lemma NetworkManager.slot_eq_bind (dst : NodeID) (pid i : ℕ) :
    nm.slot dst pid i
      = (nm.endpoint dst).bind fun e => (e.outgoing.lookup pid).bind (·.frags[i]?) := by
  ext f
  simp only [slot_eq_some, Option.bind_eq_some_iff]
  exact ⟨fun ⟨e, fp, he, hl, hf⟩ => ⟨e, he, fp, hl, hf⟩,
    fun ⟨e, he, fp, hl, hf⟩ => ⟨e, fp, he, hl, hf⟩⟩

/-- Linking or unlinking a fragment changes no message. -/
lemma NetworkManager.OutqueueInv.message_link (h : nm.OutqueueInv) {n : NodeID} {e : Endpoint}
    {fp : FragmentedPacket} {pid : ℕ} (he : nm.endpoint n = some e)
    (hl : e.outgoing.lookup pid = some fp) (id : ℕ) (b : Bool) (el : QueueElem) :
    (nm.link e fp id b q).message el = nm.message el := by
  cases el with
  | request r => rfl
  | fragment dst pid' i =>
      have hwf := (h.wf.endpoint_wf he).outgoing
      have hnode := h.wf.nodeidEqual_of_endpoint he
      have hput := h.wf.endpoint_put (e := { e with outgoing := e.outgoing.store (fp.relink id b) })
        (q := q) (n := dst) hnode
      rw [NetworkManager.put_of_some he] at hput
      rw [message, message, slot_eq_bind, slot_eq_bind, NetworkManager.link, hput]
      split_ifs with hn
      · rw [← h.wf.endpoint_congr hn, he]
        simp only [Option.bind_some, hwf.lookup_store, FragmentedPacket.relink_packetId,
          hwf.packetId_of_lookup hl]
        split_ifs with hp
        · -- the messages are compared with the link cleared
          rw [← hp, hl]
          simp only [Option.map_some, Option.bind_some, FragmentedPacket.relink,
            List.getElem?_modify]
          cases fp.frags[i]? with
          | none => rfl
          | some f => by_cases hi : id = i <;> simp [hi]
        · rfl
      · rfl

/-- **Popping a message** hands out the one behind the first element, and leaves the others as they
are. -/
lemma NetworkManager.OutqueueInv.popMessage (h : nm.OutqueueInv) (hq : nm.outqueue = el :: q) :
    ∃ nm' m, networkManagerPopOutgoingNetMsg nm = .ok (nm', some m) ∧ nm.message el = some m
      ∧ nm'.OutqueueInv ∧ nm'.outqueue = q ∧ ∀ el, nm'.message el = nm.message el := by
  cases el with
  | request r =>
      refine ⟨{ nm with outqueue := q }, .fragRequest { r with linked := false }, ?_, rfl,
        h.pop_request hq, rfl, fun el => ?_⟩
      · rw [networkManagerPopOutgoingNetMsg, hq]
      · cases el <;> rfl
  | fragment d pid i =>
      obtain ⟨e, fp, f, he, -, hl, hf, hpop, hinv⟩ := h.pop_fragment hq
      have hslot : nm.slot d pid i = some f := slot_eq_some.mpr ⟨e, fp, he, hl, hf⟩
      refine ⟨_, _, hpop, ?_, hinv, rfl, h.message_link he hl i false⟩
      rw [message, hslot, Option.map_some]

end Queue

/-! ## One attempt -/

namespace LocalNode

/-- The shaper lets a message through at the time `now`. -/
def Due (s : LocalNode) (now : Timeval) : Prop :=
  networkShaperNextSendingInterval s.shaper now = ⟨0, 0⟩

instance (s : LocalNode) (now : Timeval) : Decidable (s.Due now) :=
  inferInstanceAs (Decidable (_ = _))

/-- The interval an attempt answers with: how long the shaper makes the node wait, or a
millisecond if there is nothing to send. -/
def sendingInterval (s : LocalNode) (now now' : Timeval) : Timeval :=
  if networkManagerOutgoingQueueReady s.nm then
    networkShaperNextSendingInterval s.shaper (if s.Due now then now' else now)
  else ⟨0, 1000⟩

/-- The datagram an element of the queue is sent as. -/
def datagram (s : LocalNode) (el : QueueElem) : Option Bytes :=
  (s.nm.message el).bind (netHelperSendMsg ic s)

/-- The element of the queue an attempt sends. -/
def sending (s : LocalNode) (now : Timeval) : Option QueueElem :=
  if s.Due now then s.nm.outqueue.head? else none

variable {s : LocalNode} {now : Timeval}

/-- A node that holds the same messages sends the same datagrams. -/
lemma datagram_congr {nm : NetworkManager} (h : ∀ el, nm.message el = s.nm.message el) :
    datagram ic { s with nm } = s.datagram ic := by
  funext el
  rw [datagram, datagram, h]
  rfl

/-- For normalised times, a message is due from `next_sending_event` on. -/
lemma due_iff (hnext : s.shaper.nextSendingEvent.Normalised) (hnow : now.Normalised) :
    s.Due now ↔ s.shaper.nextSendingEvent.toUsec ≤ now.toUsec := by
  rw [Due, networkShaperNextSendingInterval, ← not_lt, ← Timeval.timercmpLt_iff hnow hnext]
  constructor
  · intro hzero hlt
    rw [if_pos hlt] at hzero
    have hsub := congrArg Timeval.toUsec hzero
    rw [Timeval.timersub_toUsec] at hsub
    have := (Timeval.timercmpLt_iff hnow hnext).mp hlt
    simp only [Timeval.toUsec] at hsub this
    omega
  · intro h
    rw [if_neg h]

end LocalNode

/-- **One attempt.**  It sends the first element of the queue if one is due, and leaves the shaper
as it is. -/
theorem netHelperSendAttempt_eq {s : LocalNode} (h : s.nm.OutqueueInv) (now now' : Timeval) :
    ∃ nm, netHelperSendAttempt ic s now now' = .ok ({ s with nm }, s.sendingInterval now now',
        (s.sending now).bind (s.datagram ic))
      ∧ nm.OutqueueInv ∧ (∀ el, nm.message el = s.nm.message el)
      ∧ nm.outqueue = if s.Due now then s.nm.outqueue.tail else s.nm.outqueue := by
  have hzero : ((networkShaperNextSendingInterval s.shaper now).sec = 0
      ∧ (networkShaperNextSendingInterval s.shaper now).usec = 0) ↔ s.Due now := by
    rw [LocalNode.Due, Timeval.ext_iff]
  rw [netHelperSendAttempt]
  simp only [hzero, LocalNode.sendingInterval, LocalNode.sending]
  cases hq : s.nm.outqueue with
  | nil =>
      refine ⟨s.nm, ?_, h, fun _ => rfl, by split_ifs <;> exact hq⟩
      simp [networkManagerOutgoingQueueReady, hq]
  | cons el q =>
      have hready : networkManagerOutgoingQueueReady s.nm = true := by
        rw [networkManagerOutgoingQueueReady, hq]
        rfl
      by_cases hdue : s.Due now
      · obtain ⟨nm, m, hpop, hm, hinv, hqueue, hmessage⟩ := h.popMessage hq
        refine ⟨nm, ?_, hinv, hmessage, by rw [if_pos hdue]; exact hqueue⟩
        simp only [hready, hdue, if_true, hpop, Eval.ok_bind, List.head?_cons, Option.bind_some,
          LocalNode.datagram, hm]
        rfl
      · refine ⟨s.nm, ?_, h, fun _ => rfl, by rw [if_neg hdue]; exact hq⟩
        simp only [hready, hdue, if_true, if_false, Option.bind_none]
        rfl

end PeerStreamer
