import PeerStreamer.Streaming.AdvertisedMetadata

/-!
# The bounds of a neighbourhood message

`topology_message_parse` leaves out the first byte of a message and hands the rest to
`neighbourhood_message_parse`, but with the length of the whole message.  So the test that should
keep `neighbourhood_message_parse` from metadata that are not there is one byte too generous, and
nothing keeps it from a type byte that is not there.  Whatever happened to the topology before, the
parsers stay inside a message and take from it what it carries, except for a message that ends
before its type byte, or one byte before the end of its metadata (`message_bounds_iff`).

A message is given to the parsers in a buffer of its own length, where reading a byte that it does
not have is an error.
-/

namespace PeerStreamer

variable {ID S : Type}

/-! ## What a message carries -/

/-- The metadata of a message, if it has room for all of them after its first two bytes. -/
def messageMetadata (ic : IntCoding) : Bytes → Option Metadata
  | _ :: _ :: b₁ :: b₂ :: n :: _ => some ⟨ic.int16Rcpy [b₁, b₂] % 2 ^ 16, n.toNat⟩
  | _ => none

/-- A message that ends too early for the parsers: before the type byte, or in an introduction one
byte before the end of the metadata. -/
def EndsEarly (msg : Bytes) : Prop :=
  msg.length < 2 ∨ msg[1]? = some NeighbourhoodMsg.add.code ∧ msg.length = METADATA_SIZE + 1

instance (msg : Bytes) : Decidable (EndsEarly msg) := inferInstanceAs (Decidable (_ ∨ _))

/-- Of a message that ends too early, a byte is read that is not there. -/
lemma readNeighbourhoodMsg_early (ic : IntCoding) {msg : Bytes} (h : EndsEarly msg) :
    readNeighbourhoodMsg ic msg.tail msg.length = .error .outOfBounds := by
  rcases h with hlen | ⟨hadd, hlen⟩
  · match msg, hlen with
    | [], _ => rfl
    | [_], _ => rfl
  · match msg, hlen with
    | [_, k, _, _], _ =>
        obtain rfl : k = NeighbourhoodMsg.add.code := by simpa using hadd
        rfl

/-- Of any other message, the type byte is read and, in an introduction, what it carries. -/
lemma readNeighbourhoodMsg_of_not_early (ic : IntCoding) {msg : Bytes} (h : ¬EndsEarly msg) :
    ∃ type, msg[1]? = some type ∧ readNeighbourhoodMsg ic msg.tail msg.length
      = .ok (type, if type = NeighbourhoodMsg.add.code then messageMetadata ic msg else none) := by
  obtain ⟨hlen, hadd⟩ := not_or.mp h
  match msg, hlen with
  | [], hlen => exact absurd (by decide) hlen
  | [_], hlen => exact absurd (by simp) hlen
  | [_, k], _ =>
      refine ⟨k, rfl, ?_⟩
      by_cases hk : k = NeighbourhoodMsg.add.code <;>
        simp [readNeighbourhoodMsg, byteAt, hk, METADATA_SIZE, messageMetadata]
  | [_, k, _], _ =>
      refine ⟨k, rfl, ?_⟩
      by_cases hk : k = NeighbourhoodMsg.add.code <;>
        simp [readNeighbourhoodMsg, byteAt, hk, METADATA_SIZE, messageMetadata]
  | [_, k, _, _], _ =>
      have hk : k ≠ NeighbourhoodMsg.add.code := fun hk => hadd ⟨by simp [hk], rfl⟩
      exact ⟨k, rfl, by simp [readNeighbourhoodMsg, byteAt, hk]⟩
  | _ :: k :: b₁ :: b₂ :: n :: rest, _ =>
      refine ⟨k, rfl, ?_⟩
      by_cases hk : k = NeighbourhoodMsg.add.code <;>
        simp [readNeighbourhoodMsg, byteAt, int16At, hk, METADATA_SIZE, messageMetadata]

namespace Topology

open PsInstance

/-! ## What is known of a node -/

/-- The metadata in a peer object. -/
def metadataAt (t : Topology S) (r : ℕ) : Option Metadata := (t.heap.data r).bind PeerData.metadata

lemma metadataAt_of_not_described {t : Topology S} {p : Peer ID} (h : ¬Described t p) :
    t.metadataAt p.ref = none := by
  by_contra hne
  obtain ⟨m, hm⟩ := Option.ne_none_iff_exists'.mp hne
  obtain ⟨d, hd, hdm⟩ := Option.bind_eq_some_iff.mp hm
  exact h ⟨d, m, hd, hdm⟩

section Known

variable [DecidableEq ID] [PeerSet ID S]

/-- The metadata in the peer object for a node. -/
def metadataOf (t : Topology S) (i : ID) : Option Metadata :=
  (t.topologyGetPeer i).bind fun p => t.metadataAt p.ref

/-- Making a node a neighbour creates one object, if any. -/
lemma neighbourhoodAddPeer_heap {t t' : Topology S} {i : ID} {now : ℤ} {p : Peer ID}
    {msg : TopologyMessage ID} (hadd : t.neighbourhoodAddPeer i now = .ok (t', p, msg)) :
    t'.heap = t.heap ∨ t'.heap = t.heap.alloc now := by
  rw [neighbourhoodAddPeer] at hadd
  split at hadd
  · cases hadd
    exact Or.inl rfl
  · simp only [peersetAddPeer] at hadd
    split at hadd
    · cases hadd
    · cases hadd
      dsimp only
      split_ifs
      · exact Or.inl rfl
      · exact Or.inr rfl

variable {t t' : Topology S} {p : Peer ID} {i : ID} {now : ℤ} {msg : TopologyMessage ID}

/-- A new object has no metadata, and the others keep theirs. -/
lemma neighbourhoodAddPeer_metadataAt (h : TopologyInv t)
    (hadd : t.neighbourhoodAddPeer i now = .ok (t', p, msg)) (r : ℕ) :
    t'.metadataAt r = t.metadataAt r := by
  rcases neighbourhoodAddPeer_heap hadd with hheap | hheap
  · rw [metadataAt, metadataAt, hheap]
  · by_cases hr : r = t.heap.next
    · simp [metadataAt, hheap, PeerHeap.alloc, hr, next_fresh h]
    · simp [metadataAt, hheap, PeerHeap.alloc, hr]

variable [LawfulPeerSet ID S]

/-- The object of a node that is made a neighbour holds what was known of the node. -/
lemma neighbourhoodAddPeer_metadataOf (h : TopologyInv t)
    (hadd : t.neighbourhoodAddPeer i now = .ok (t', p, msg)) :
    t.metadataAt p.ref = t.metadataOf i := by
  obtain ⟨-, -, hfound | ⟨hnew, hp⟩⟩ := neighbourhoodAddPeer_described h hadd
  · rw [metadataOf, hfound, Option.bind_some]
  · rw [metadataOf, hnew, Option.bind_none, metadataAt_of_not_described hp]

/-- An introduction leaves what is known of its sender, or replaces it by what it carries. -/
lemma handleNeighbourhoodMessage_metadataOf (h : TopologyInv t) (hin : t.topoIn = true)
    (source : ID) (m : Option Metadata) (now : ℤ) :
    ∃ t' sent, t.handleNeighbourhoodMessage source 0 m now = .ok (t', sent)
      ∧ t'.metadataOf source = m.or (t.metadataOf source) := by
  cases m with
  | none =>
      obtain ⟨t₁, p, hadd, hinv₁, hp, rfl⟩ := neighbourhoodAddPeer_inv h source now
      have hget : t₁.topologyGetPeer p.id = some p :=
        (topologyGetPeer_eq_some hinv₁).mpr ⟨Or.inl hp, rfl⟩
      refine ⟨t₁, [.bufferMap p.id],
        by simp [handleNeighbourhoodMessage, hin, neighbourhoodMessageParse, hadd], ?_⟩
      rw [metadataOf, hget, Option.bind_some, neighbourhoodAddPeer_metadataAt h hadd,
        neighbourhoodAddPeer_metadataOf h hadd, Option.none_or]
  | some m =>
      obtain ⟨t', sent, p, d, hmsg, hget, hread, hm⟩ :=
        handleNeighbourhoodMessage_add h hin source m now
      refine ⟨t', sent, hmsg, ?_⟩
      rw [metadataOf, hget, Option.bind_some, metadataAt, PeerHeap.data_of_read hread,
        Option.bind_some, hm, Option.some_or]

end Known

/-! ## Inside the message -/

variable [DecidableEq ID] [PeerSet ID S]

/-- A message is parsed without reading beyond its end: what it says about its sender, in an
introduction, is noted if it is all there, and left as it was otherwise; without a type byte
nothing happens. -/
def ParsesInside (ic : IntCoding) (msgType : UInt8) (t : Topology S) (source : ID) (msg : Bytes)
    (now : ℤ) : Prop :=
  ∃ t' sent, t.topologyMessageParse ic msgType source msg msg.length now = .ok (t', sent)
    ∧ (msg[1]? = some NeighbourhoodMsg.add.code →
      t'.metadataOf source = (messageMetadata ic msg).or (t.metadataOf source))
    ∧ (msg.length < 2 → t' = t ∧ sent = [])

/-- What is done with a message that has a type byte, at a node that accepts neighbours. -/
lemma topologyMessageParse_eq {ic : IntCoding} {msgType : UInt8} {t : Topology S}
    (hin : t.topoIn = true) {source : ID} {msg : Bytes} (hmsg : msg.head? = some msgType)
    {now : ℤ} :
    t.topologyMessageParse ic msgType source msg msg.length now = (do
      let (type, m) ← readNeighbourhoodMsg ic msg.tail msg.length
      t.handleNeighbourhoodMessage source type m now) := by
  have hhead : byteAt msg 0 = .ok msgType := by
    rw [byteAt, ← List.head?_eq_getElem?, hmsg]
    rfl
  simp [topologyMessageParse, hhead, hin, handleNeighbourhoodMessage]

variable [LawfulPeerSet ID S]

/-- **Inside, or one byte beyond.** -/
lemma parsesInside_iff (ic : IntCoding) {msgType : UInt8} {t : Topology S} (h : TopologyInv t)
    (hin : t.topoIn = true) (source : ID) {msg : Bytes} (hmsg : msg.head? = some msgType)
    (now : ℤ) :
    ParsesInside ic msgType t source msg now ↔ ¬EndsEarly msg := by
  constructor
  · rintro ⟨t', sent, hparse, -⟩ hearly
    rw [topologyMessageParse_eq hin hmsg, readNeighbourhoodMsg_early ic hearly] at hparse
    cases hparse
  · intro hearly
    obtain ⟨type, htype, hread⟩ := readNeighbourhoodMsg_of_not_early ic hearly
    have hlen : ¬msg.length < 2 := fun hlen => hearly (Or.inl hlen)
    by_cases hadd : type = NeighbourhoodMsg.add.code
    · rw [if_pos hadd, hadd] at hread
      obtain ⟨t', sent, hmsg', hmeta⟩ :=
        handleNeighbourhoodMessage_metadataOf h hin source (messageMetadata ic msg) now
      refine ⟨t', sent, ?_, fun _ => hmeta, fun hshort => absurd hshort hlen⟩
      rw [topologyMessageParse_eq hin hmsg, hread]
      exact hmsg'
    · rw [if_neg hadd] at hread
      obtain ⟨t', sent, hmsg', -⟩ := handleNeighbourhoodMessage_inv h source type none now
      refine ⟨t', sent, ?_, fun hkind => ?_, fun hshort => absurd hshort hlen⟩
      · rw [topologyMessageParse_eq hin hmsg, hread]
        exact hmsg'
      · exact absurd (Option.some.inj (htype.symm.trans hkind)) hadd

/-- **The bounds of a message.**  Whatever happened to a topology before, a neighbourhood message
is parsed inside its bounds exactly if it has a type byte and is not an introduction that ends one
byte before the end of its metadata. -/
theorem message_bounds_iff (ic : IntCoding) (msgType : UInt8) {neighbourhoodSize peerTimeout : ℤ}
    {cbSize : ℕ} {ops : List (TopologyOp ID)} {t : Topology S}
    {outs : List (List (TopologyMessage ID))}
    (hrun : exec topologyStep (topologyInit neighbourhoodSize peerTimeout cbSize) ops
      = .ok (t, outs)) (source : ID) {msg : Bytes} (hmsg : msg.head? = some msgType) (now : ℤ) :
    ParsesInside ic msgType t source msg now ↔ ¬EndsEarly msg := by
  obtain ⟨hinv, hconf⟩ := topologyInv_of_run hrun
  have hin : t.topoIn = true := congrArg (fun c => c.2.2.1) hconf
  exact parsesInside_iff ic hinv hin source hmsg now

/-- An introduction without metadata, at a node that knows the sender with metadata. -/
theorem message_bounds_iff_known :
    ∃ (t : Topology (PeerList ℕ)) (outs : List (List (TopologyMessage ℕ))),
      exec topologyStep (topologyInit 30 10 50) [.message 7 0 (some ⟨50, 3⟩) 0] = .ok (t, outs)
      ∧ ParsesInside bigEndian 0x10 t 7 [0x10, 0] 1 := by
  obtain ⟨t, outs, hrun, -⟩ := topologyRun_inv (S := PeerList ℕ) 30 10 50
    [TopologyOp.message 7 0 (some ⟨50, 3⟩) 0]
  exact ⟨t, outs, hrun, (message_bounds_iff bigEndian 0x10 hrun 7 rfl 1).mpr (by decide)⟩

/-- An introduction of four bytes is read beyond its end: the size of the neighbourhood is taken
from what happens to follow. -/
theorem not_message_bounds :
    ¬∀ (ic : IntCoding) (msgType : UInt8) (ops : List (TopologyOp ℕ)) (t : Topology (PeerList ℕ))
      (outs : List (List (TopologyMessage ℕ))),
      exec topologyStep (topologyInit 30 10 50) ops = .ok (t, outs) →
      ∀ (source : ℕ) (msg : Bytes) (now : ℤ), 1 ≤ msg.length → msg.head? = some msgType →
        ParsesInside ic msgType t source msg now := by
  intro h
  have hinside := h bigEndian 0x10 [] _ [] (exec_nil _) 7 [0x10, 0, 0, 50] 0 (by decide) rfl
  have hnot := (parsesInside_iff bigEndian (topologyInit_inv 30 10 50) rfl 7 rfl 0).mp hinside
  exact hnot (by decide)

end Topology

end PeerStreamer
