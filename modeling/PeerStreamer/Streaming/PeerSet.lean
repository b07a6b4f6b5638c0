import PeerStreamer.Foundation.Eval

/-!
# Sets of peers

The `peerset` of GRAPES is not part of the repository, so it is a parameter: `PeerSet` has its
operations, `LawfulPeerSet` what the code relies on — a set of peers keyed by node id, where pushing
a present id changes nothing and popping removes the peer and returns it.  `PeerList` is a concrete
one.

A peer is an object in memory that sets refer to; the objects are in a `PeerHeap`, and an object
that has been freed is not there any more.  Node ids are compared by `nodeid_equal` throughout, so
`ID` is the type of node ids up to that comparison.  They are values: whether the id of a peer that
`peerset_remove_peer` has freed is used once more, as in `neighbourhood_drop_unactives`, is not
seen.
-/

namespace PeerStreamer

/-- A reference to a peer, with the id the peer was created with. -/
structure Peer (ID : Type) where
  ref : ℕ
  id : ID
  deriving DecidableEq, Repr

/-- The operations of `peerset.h`; `getPeers` is the array the peers are in. -/
class PeerSet (ID : outParam Type) (S : Type) where
  init : S
  getPeers : S → List (Peer ID)
  pushPeer : S → Peer ID → S
  popPeer : S → ID → S × Option (Peer ID)
  clear : S → S

export PeerSet (getPeers pushPeer popPeer)

variable {ID S : Type} [DecidableEq ID]

/-- What is relied on. -/
class LawfulPeerSet (ID : outParam Type) (S : Type) [DecidableEq ID] [PeerSet ID S] : Prop where
  keyed : ∀ s : S, ((getPeers s).map Peer.id).Nodup
  getPeers_init : getPeers (PeerSet.init : S) = []
  mem_pushPeer : ∀ (s : S) (p q : Peer ID),
    p ∈ getPeers (pushPeer s q) ↔ p ∈ getPeers s ∨ p = q ∧ q.id ∉ (getPeers s).map Peer.id
  popPeer_snd : ∀ (s : S) (i : ID), (popPeer s i).2 = (getPeers s).find? (·.id = i)
  mem_popPeer : ∀ (s : S) (i : ID) (p : Peer ID),
    p ∈ getPeers (popPeer s i).1 ↔ p ∈ getPeers s ∧ p.id ≠ i
  getPeers_clear : ∀ s : S, getPeers (PeerSet.clear s) = []

attribute [simp] LawfulPeerSet.getPeers_init LawfulPeerSet.getPeers_clear
  LawfulPeerSet.mem_pushPeer LawfulPeerSet.mem_popPeer LawfulPeerSet.popPeer_snd

section Operations

variable [PeerSet ID S]

/-- `peerset_get_peer` -/
def peersetGetPeer (s : S) (i : ID) : Option (Peer ID) := (getPeers s).find? (·.id = i)

/-- `peerset_size` -/
def peersetSize (s : S) : ℕ := (getPeers s).length

/-- The ids in a set. -/
def peerIds (s : S) : List ID := (getPeers s).map Peer.id

/-- `peerset_check` finds the id. -/
def peersetCheck (s : S) (i : ID) : Bool := (peersetGetPeer s i).isSome

lemma peersetGetPeer_eq_none {s : S} {i : ID} :
    peersetGetPeer s i = none ↔ ∀ p ∈ getPeers s, p.id ≠ i := by
  simp [peersetGetPeer]

lemma peersetCheck_iff {s : S} {i : ID} :
    peersetCheck s i = true ↔ ∃ p ∈ getPeers s, p.id = i := by
  simp [peersetCheck, peersetGetPeer]

end Operations

section Laws

variable [PeerSet ID S] [LawfulPeerSet ID S] {s : S} {p q : Peer ID} {i : ID}

/-- Peers of a set with the same id are the same. -/
lemma eq_of_id_eq (hp : p ∈ getPeers s) (hq : q ∈ getPeers s) (h : p.id = q.id) : p = q :=
  List.inj_on_of_nodup_map (LawfulPeerSet.keyed s) hp hq h

lemma nodup_getPeers (s : S) : (getPeers s).Nodup := (LawfulPeerSet.keyed s).of_map _

lemma peersetGetPeer_eq_some : peersetGetPeer s i = some p ↔ p ∈ getPeers s ∧ p.id = i := by
  constructor
  · intro h
    exact ⟨List.mem_of_find?_eq_some h, by simpa using List.find?_some h⟩
  · rintro ⟨hp, rfl⟩
    cases hf : peersetGetPeer s p.id with
    | none => simpa using List.find?_eq_none.mp hf p hp
    | some q =>
        have hq : q.id = p.id := by simpa using List.find?_some hf
        rw [eq_of_id_eq (List.mem_of_find?_eq_some hf) hp hq]

/-- What a pop gives back. -/
lemma popPeer_eq (s : S) (i : ID) : popPeer s i = ((popPeer s i).1, peersetGetPeer s i) :=
  Prod.ext rfl (LawfulPeerSet.popPeer_snd s i)

lemma mem_pushPeer_of_new (h : ∀ p ∈ getPeers s, p.id ≠ q.id) :
    p ∈ getPeers (pushPeer s q) ↔ p ∈ getPeers s ∨ p = q := by
  have hnew : q.id ∉ (getPeers s).map Peer.id := fun hm => by
    obtain ⟨r, hr, hrq⟩ := List.mem_map.mp hm
    exact h r hr hrq
  simp [hnew]

end Laws

/-! ## A concrete set -/

/-- Peers in the order they were pushed. -/
abbrev PeerList (ID : Type) : Type := { l : List (Peer ID) // (l.map Peer.id).Nodup }

instance : PeerSet ID (PeerList ID) where
  init := ⟨[], List.nodup_nil⟩
  getPeers s := s.1
  pushPeer s p := if h : p.id ∈ s.1.map Peer.id then s else
    ⟨s.1 ++ [p], by simpa [List.nodup_append] using ⟨s.2, fun q hq he => h (by
      rw [← he]
      exact List.mem_map_of_mem hq)⟩⟩
  popPeer s i := (⟨s.1.filter (·.id ≠ i), s.2.sublist (List.filter_sublist.map _)⟩,
    s.1.find? (·.id = i))
  clear _ := ⟨[], List.nodup_nil⟩

instance : LawfulPeerSet ID (PeerList ID) where
  keyed s := s.2
  getPeers_init := rfl
  mem_pushPeer s p q := by
    by_cases h : q.id ∈ s.1.map Peer.id
    · simp only [pushPeer, getPeers, dif_pos h]
      simp [h]
    · simp only [pushPeer, getPeers, dif_neg h]
      simp [h]
  popPeer_snd s i := rfl
  mem_popPeer s i p := by simp [popPeer, getPeers]
  getPeers_clear s := rfl

/-! ## The objects -/

/-- `struct metadata` -/
structure Metadata where
  cbSize : ℕ
  neighSize : ℕ
  deriving DecidableEq, Repr

/-- What a peer object holds besides its id.  Times are in microseconds; a `bmapTimestamp` of zero
has not been set. -/
structure PeerData where
  creationTimestamp : ℤ
  bmapTimestamp : ℤ
  metadata : Option Metadata
  deriving DecidableEq, Repr

/-- The peer objects that exist, and the next address to be used. -/
structure PeerHeap where
  data : ℕ → Option PeerData
  next : ℕ

namespace PeerHeap

/-- No object yet. -/
def empty : PeerHeap := ⟨fun _ => none, 0⟩

/-- A new peer object, as `peer_init` leaves it. -/
def alloc (h : PeerHeap) (now : ℤ) : PeerHeap :=
  ⟨Function.update h.data h.next (some ⟨now, 0, none⟩), h.next + 1⟩

/-- Reading an object. -/
def read (h : PeerHeap) (r : ℕ) : Eval PeerData :=
  match h.data r with
  | none => .error .useAfterFree
  | some d => .ok d

/-- Writing an object. -/
def write (h : PeerHeap) (r : ℕ) (d : PeerData) : Eval PeerHeap := do
  let _ ← h.read r
  return { h with data := Function.update h.data r (some d) }

/-- Freeing an object. -/
def free (h : PeerHeap) (r : ℕ) : Eval PeerHeap := do
  let _ ← h.read r
  return { h with data := Function.update h.data r none }

variable {h h' : PeerHeap} {r : ℕ} {d : PeerData}

lemma data_of_read (hr : h.read r = .ok d) : h.data r = some d := by
  rw [read] at hr
  cases hd : h.data r with
  | none =>
      rw [hd] at hr
      cases hr
  | some d' =>
      rw [hd] at hr
      cases hr
      rfl

lemma data_of_write (hw : h.write r d = .ok h') : h'.data = Function.update h.data r (some d) := by
  simp only [write, Eval.bind_eq_ok, Eval.pure_eq_ok, Except.ok.injEq] at hw
  obtain ⟨-, -, rfl⟩ := hw
  rfl

lemma read_of_write (hw : h.write r d = .ok h') : h'.read r = .ok d := by
  rw [read, data_of_write hw, Function.update_self]

lemma data_of_free (hf : h.free r = .ok h') : h'.data = Function.update h.data r none := by
  simp only [free, Eval.bind_eq_ok, Eval.pure_eq_ok, Except.ok.injEq] at hf
  obtain ⟨-, -, rfl⟩ := hf
  rfl

/-- What is there after an object has been freed. -/
lemma live_of_free {r' : ℕ} (hf : h.free r = .ok h') (hr : h'.data r' ≠ none) :
    r' ≠ r ∧ h.data r' ≠ none := by
  rw [data_of_free hf] at hr
  have hne : r' ≠ r := by
    rintro rfl
    exact hr (Function.update_self _ _ _)
  rw [Function.update_of_ne hne] at hr
  exact ⟨hne, hr⟩

end PeerHeap

end PeerStreamer
