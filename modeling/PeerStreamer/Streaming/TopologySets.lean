import PeerStreamer.Streaming.Topology

/-!
# The sets of the topology

The neighbourhood and the swarm bucket are disjoint, and the objects in them exist and belong to one
peer each (`Placed`); what is locked is in the neighbourhood (`TopologyInv`).  Every operation keeps
this.  Within an update a locked peer may be in the swarm bucket for a while, so the part of the
invariant about the two sets is separate.  That the node tells its neighbours about changes
(`topoOut`) is set at the start and kept as well.
-/

namespace PeerStreamer

variable {ID S : Type} [PeerSet ID S]

/-! ## Two sets of objects -/

/-- No id is in both sets. -/
def Apart (s₁ s₂ : S) : Prop := ∀ p ∈ getPeers s₁, ∀ q ∈ getPeers s₂, p.id ≠ q.id

/-- Two disjoint sets of peers, whose objects exist and are different. -/
structure Placed (h : PeerHeap) (s₁ s₂ : S) : Prop where
  disjoint : ∀ p ∈ getPeers s₁, ∀ q ∈ getPeers s₂, p.id ≠ q.id
  owner : ∀ p q, p ∈ getPeers s₁ ∨ p ∈ getPeers s₂ → q ∈ getPeers s₁ ∨ q ∈ getPeers s₂ →
    p.ref = q.ref → p = q
  live : ∀ p, p ∈ getPeers s₁ ∨ p ∈ getPeers s₂ → h.data p.ref ≠ none
  bound : ∀ r, h.next ≤ r → h.data r = none

section Placed

variable {h : PeerHeap} {s₁ s₂ s₁' s₂' : S} {p q : Peer ID} {i : ID}

lemma Placed.symm (hp : Placed h s₁ s₂) : Placed h s₂ s₁ where
  disjoint p h₁ q h₂ := (hp.disjoint q h₂ p h₁).symm
  owner p q h₁ h₂ := hp.owner p q h₁.symm h₂.symm
  live p h₁ := hp.live p h₁.symm
  bound := hp.bound

/-- Fewer peers, as long as they are apart. -/
lemma Placed.mono (hp : Placed h s₁ s₂)
    (hsub : ∀ p, p ∈ getPeers s₁' ∨ p ∈ getPeers s₂' → p ∈ getPeers s₁ ∨ p ∈ getPeers s₂)
    (hdisj : ∀ p ∈ getPeers s₁', ∀ q ∈ getPeers s₂', p.id ≠ q.id) : Placed h s₁' s₂' where
  disjoint := hdisj
  owner p q h₁ h₂ := hp.owner p q (hsub p h₁) (hsub q h₂)
  live p h₁ := hp.live p (hsub p h₁)
  bound := hp.bound

/-- An object of one of the sets is changed. -/
lemma Placed.write (hp : Placed h s₁ s₂) (hmem : p ∈ getPeers s₁ ∨ p ∈ getPeers s₂)
    (d : PeerData) : ∃ h', h.write p.ref d = .ok h' ∧ Placed h' s₁ s₂ := by
  have hlive := hp.live p hmem
  refine ⟨{ h with data := Function.update h.data p.ref (some d) }, ?_, hp.disjoint, hp.owner,
    fun q hq => ?_, fun r hr => ?_⟩
  · rw [PeerHeap.write, PeerHeap.read]
    cases hd : h.data p.ref with
    | none => exact absurd hd hlive
    | some d => rfl
  · by_cases hqp : q.ref = p.ref
    · simp [hqp]
    · simpa [hqp] using hp.live q hq
  · have hrp : r ≠ p.ref := by
      rintro rfl
      exact hlive (hp.bound _ hr)
    simpa [hrp] using hp.bound r hr

lemma Placed.read (hp : Placed h s₁ s₂) (hmem : p ∈ getPeers s₁ ∨ p ∈ getPeers s₂) :
    ∃ d, h.read p.ref = .ok d := by
  rw [PeerHeap.read]
  cases hd : h.data p.ref with
  | none => exact absurd hd (hp.live p hmem)
  | some d => exact ⟨d, rfl⟩

variable [DecidableEq ID] [LawfulPeerSet ID S]

/-- A new peer is added to the first set. -/
lemma Placed.add (hp : Placed h s₁ s₂) (h₁ : ∀ p ∈ getPeers s₁, p.id ≠ i)
    (h₂ : ∀ p ∈ getPeers s₂, p.id ≠ i) (now : ℤ) :
    Placed (h.alloc now) (pushPeer s₁ ⟨h.next, i⟩) s₂ := by
  have hmem : ∀ p, p ∈ getPeers (pushPeer s₁ ⟨h.next, i⟩) ↔ p ∈ getPeers s₁ ∨ p = ⟨h.next, i⟩ :=
    fun p => mem_pushPeer_of_new h₁
  have hold : ∀ p, p ∈ getPeers s₁ ∨ p ∈ getPeers s₂ → p.ref ≠ h.next := by
    intro p hmem he
    exact hp.live p hmem (hp.bound _ he.ge)
  refine ⟨fun p hm q hq => ?_, fun p q hm hq he => ?_, fun p hm => ?_, fun r hr => ?_⟩
  · rcases (hmem p).mp hm with hm | rfl
    · exact hp.disjoint p hm q hq
    · exact (h₂ q hq).symm
  · rw [hmem, or_right_comm] at hm hq
    rcases hm with hm | rfl <;> rcases hq with hq | rfl
    · exact hp.owner p q hm hq he
    · exact absurd he (hold p hm)
    · exact absurd he.symm (hold q hq)
    · rfl
  · rw [hmem, or_right_comm] at hm
    rcases hm with hm | rfl
    · simpa [PeerHeap.alloc, hold p hm] using hp.live p hm
    · simp [PeerHeap.alloc]
  · simp only [PeerHeap.alloc] at hr ⊢
    rw [Function.update_of_ne (by omega)]
    exact hp.bound r (by omega)

/-- The peer with an id is taken out of the first set and freed. -/
lemma Placed.remove (hp : Placed h s₁ s₂) (i : ID) :
    ∃ h', peersetRemovePeer h s₁ i = .ok (h', (popPeer s₁ i).1)
      ∧ Placed h' (popPeer s₁ i).1 s₂ := by
  have hsub : ∀ p, p ∈ getPeers (popPeer s₁ i).1 ∨ p ∈ getPeers s₂ →
      p ∈ getPeers s₁ ∨ p ∈ getPeers s₂ := fun p hm =>
    hm.imp_left fun hm => (LawfulPeerSet.mem_popPeer _ _ _ |>.mp hm).1
  have hdisj : ∀ p ∈ getPeers (popPeer s₁ i).1, ∀ q ∈ getPeers s₂, p.id ≠ q.id := fun p hm =>
    hp.disjoint p (LawfulPeerSet.mem_popPeer _ _ _ |>.mp hm).1
  rw [peersetRemovePeer, popPeer_eq]
  cases hget : peersetGetPeer s₁ i with
  | none => exact ⟨h, rfl, hp.mono hsub hdisj⟩
  | some p =>
      obtain ⟨hps, rfl⟩ := peersetGetPeer_eq_some.mp hget
      obtain ⟨d, hread⟩ := hp.read (Or.inl hps)
      refine ⟨{ h with data := Function.update h.data p.ref none }, ?_, hdisj, ?_, ?_, ?_⟩
      · simp only [PeerHeap.free, hread, Eval.ok_bind]
        rfl
      · exact fun q r hq hr => hp.owner q r (hsub q hq) (hsub r hr)
      · intro q hq
        have hne : q.ref ≠ p.ref := by
          intro he
          obtain rfl := hp.owner q p (hsub q hq) (Or.inl hps) he
          rcases hq with hq | hq
          · exact (LawfulPeerSet.mem_popPeer _ _ _ |>.mp hq).2 rfl
          · exact hp.disjoint q hps q hq rfl
        simpa [hne] using hp.live q (hsub q hq)
      · intro r hr
        by_cases hrp : r = p.ref
        · simp [hrp]
        · simpa [hrp] using hp.bound r hr

/-- A peer moves from the first set to the second. -/
lemma Apart.move (hd : Apart s₁ s₂) (hmem : p ∈ getPeers s₁) :
    Apart (popPeer s₁ p.id).1 (pushPeer s₂ p)
      ∧ (∀ q, q ∈ getPeers (popPeer s₁ p.id).1 ∨ q ∈ getPeers (pushPeer s₂ p)
        ↔ q ∈ getPeers s₁ ∨ q ∈ getPeers s₂)
      ∧ ∀ q, q ∈ getPeers (pushPeer s₂ p) ↔ q ∈ getPeers s₂ ∨ q = p := by
  have hpush : ∀ q, q ∈ getPeers (pushPeer s₂ p) ↔ q ∈ getPeers s₂ ∨ q = p := fun q =>
    mem_pushPeer_of_new fun r hr => (hd p hmem r hr).symm
  refine ⟨fun q hq r hr => ?_, fun q => ?_, hpush⟩
  · obtain ⟨hq, hid⟩ := (LawfulPeerSet.mem_popPeer _ _ _).mp hq
    rcases (hpush r).mp hr with hr | rfl
    · exact hd q hq r hr
    · exact hid
  · rw [LawfulPeerSet.mem_popPeer, hpush]
    constructor
    · rintro (⟨hq, -⟩ | hq | rfl)
      · exact Or.inl hq
      · exact Or.inr hq
      · exact Or.inl hmem
    · rintro (hq | hq)
      · by_cases hid : q.id = p.id
        · exact Or.inr (Or.inr (eq_of_id_eq hq hmem hid))
        · exact Or.inl ⟨hq, hid⟩
      · exact Or.inr (Or.inl hq)

lemma Placed.move (hp : Placed h s₁ s₂) (hmem : p ∈ getPeers s₁) :
    Placed h (popPeer s₁ p.id).1 (pushPeer s₂ p)
      ∧ (∀ q, q ∈ getPeers (popPeer s₁ p.id).1 ∨ q ∈ getPeers (pushPeer s₂ p)
        ↔ q ∈ getPeers s₁ ∨ q ∈ getPeers s₂)
      ∧ ∀ q, q ∈ getPeers (pushPeer s₂ p) ↔ q ∈ getPeers s₂ ∨ q = p := by
  obtain ⟨hdisj, hunion, hpush⟩ := Apart.move hp.disjoint hmem
  exact ⟨hp.mono (fun q => (hunion q).mp) hdisj, hunion, hpush⟩

end Placed

/-! ## The invariant -/

/-- The invariant of the topology. -/
structure TopologyInv (t : Topology S) : Prop where
  placed : Placed t.heap t.neighbourhood t.swarmBucket
  locked : ∀ p ∈ getPeers t.lockedNeighs, p ∈ getPeers t.neighbourhood
  tells : t.topoOut = true

namespace Topology

variable {t t' : Topology S} {p : Peer ID} {i : ID}

/-- The data of a known peer are changed. -/
lemma write_inv (h : TopologyInv t) (hp : p ∈ getPeers t.neighbourhood ∨ p ∈ getPeers t.swarmBucket)
    (f : PeerData → PeerData) :
    ∃ d heap, t.heap.read p.ref = .ok d ∧ t.heap.write p.ref (f d) = .ok heap
      ∧ TopologyInv { t with heap } := by
  obtain ⟨d, hread⟩ := h.placed.read hp
  obtain ⟨heap, hwrite, hplaced⟩ := h.placed.write hp (f d)
  exact ⟨d, heap, hread, hwrite, hplaced, h.locked, h.tells⟩

lemma peerSetMetadata_inv (h : TopologyInv t)
    (hp : p ∈ getPeers t.neighbourhood ∨ p ∈ getPeers t.swarmBucket) (m : Metadata) :
    ∃ heap, t.peerSetMetadata p m = .ok { t with heap } ∧ TopologyInv { t with heap } := by
  obtain ⟨d, heap, hread, hwrite, hinv⟩ := write_inv h hp fun d => { d with metadata := some m }
  refine ⟨heap, ?_, hinv⟩
  rw [peerSetMetadata, hread]
  simp only [Eval.ok_bind, hwrite]
  rfl

lemma peerSetBmapTimestamp_inv (h : TopologyInv t)
    (hp : p ∈ getPeers t.neighbourhood ∨ p ∈ getPeers t.swarmBucket) (now : ℤ) :
    ∃ heap, t.peerSetBmapTimestamp p now = .ok { t with heap } ∧ TopologyInv { t with heap } := by
  obtain ⟨d, heap, hread, hwrite, hinv⟩ := write_inv h hp fun d => { d with bmapTimestamp := now }
  refine ⟨heap, ?_, hinv⟩
  rw [peerSetBmapTimestamp, hread]
  simp only [Eval.ok_bind, hwrite]
  rfl

/-- A known peer can be told something. -/
lemma neighbourhoodSendMsg_eq (h : Placed t.heap t.neighbourhood t.swarmBucket)
    (hp : p ∈ getPeers t.neighbourhood ∨ p ∈ getPeers t.swarmBucket) (kind : NeighbourhoodMsg) :
    t.neighbourhoodSendMsg p kind = .ok (.neighbourhood p.id kind t.myMetadata) := by
  obtain ⟨d, hread⟩ := h.read hp
  simp [neighbourhoodSendMsg, hread]

variable [DecidableEq ID]

lemma topologyGetPeer_eq_none :
    t.topologyGetPeer i = none
      ↔ (∀ p ∈ getPeers t.neighbourhood, p.id ≠ i) ∧ ∀ p ∈ getPeers t.swarmBucket, p.id ≠ i := by
  rw [topologyGetPeer, Option.or_eq_none_iff, peersetGetPeer_eq_none, peersetGetPeer_eq_none,
    and_comm]

lemma topologyGetPeer_isSome (h : p ∈ getPeers t.neighbourhood ∨ p ∈ getPeers t.swarmBucket) :
    ∃ q, t.topologyGetPeer p.id = some q := by
  cases hq : t.topologyGetPeer p.id with
  | some q => exact ⟨q, rfl⟩
  | none =>
      obtain ⟨h₁, h₂⟩ := topologyGetPeer_eq_none.mp hq
      rcases h with h | h
      · exact absurd rfl (h₁ p h)
      · exact absurd rfl (h₂ p h)

lemma addToSwarm_eq (hnew : t.topologyGetPeer i = none) (now : ℤ) :
    t.addToSwarm i now = { t with
      heap := t.heap.alloc now, swarmBucket := pushPeer t.swarmBucket ⟨t.heap.next, i⟩ } := by
  have hcheck : peersetCheck t.swarmBucket i = false := by
    rw [peersetCheck, peersetGetPeer_eq_none.mpr (topologyGetPeer_eq_none.mp hnew).2]
    rfl
  simp [addToSwarm, peersetAddPeer, hcheck]

variable [LawfulPeerSet ID S]

lemma topologyInit_inv (neighbourhoodSize peerTimeout : ℤ) (cbSize : ℕ) :
    TopologyInv (topologyInit neighbourhoodSize peerTimeout cbSize : Topology S) := by
  refine ⟨?_, ?_, rfl⟩
  · constructor <;> simp [topologyInit, updateMetadata, PeerHeap.empty]
  · simp [topologyInit, updateMetadata]

lemma mem_of_topologyGetPeer (h : t.topologyGetPeer i = some p) :
    (p ∈ getPeers t.neighbourhood ∨ p ∈ getPeers t.swarmBucket) ∧ p.id = i := by
  rw [topologyGetPeer, Option.or_eq_some_iff] at h
  rcases h with h | ⟨-, h⟩
  · obtain ⟨hp, hid⟩ := peersetGetPeer_eq_some.mp h
    exact ⟨Or.inr hp, hid⟩
  · obtain ⟨hp, hid⟩ := peersetGetPeer_eq_some.mp h
    exact ⟨Or.inl hp, hid⟩

/-- A peer that is unknown is added to the swarm bucket. -/
lemma addToSwarm_inv (h : TopologyInv t) (hnew : t.topologyGetPeer i = none) (now : ℤ) :
    TopologyInv (t.addToSwarm i now) ∧ ∃ p, (t.addToSwarm i now).topologyGetPeer i = some p := by
  obtain ⟨h₁, h₂⟩ := topologyGetPeer_eq_none.mp hnew
  rw [addToSwarm_eq hnew]
  refine ⟨⟨(h.placed.symm.add h₂ h₁ now).symm, h.locked, h.tells⟩, ?_⟩
  exact topologyGetPeer_isSome (p := ⟨t.heap.next, i⟩)
    (Or.inr ((mem_pushPeer_of_new h₂).mpr (Or.inr rfl)))

lemma topologyNodeInsert_inv (h : TopologyInv t) (i : ID) (now : ℤ) :
    TopologyInv (t.topologyNodeInsert i now) := by
  rw [topologyNodeInsert]
  split_ifs with hnew
  · exact (addToSwarm_inv h hnew now).1
  · exact h

/-- **A neighbour is added**: it comes from the swarm bucket, or it is locked. -/
theorem neighbourhoodAddPeer_inv (h : TopologyInv t) (i : ID) (now : ℤ) :
    ∃ t' p, t.neighbourhoodAddPeer i now = .ok (t', p, .bufferMap i) ∧ TopologyInv t'
      ∧ p ∈ getPeers t'.neighbourhood ∧ p.id = i := by
  rw [neighbourhoodAddPeer, popPeer_eq]
  cases hget : peersetGetPeer t.swarmBucket i with
  | some p =>
      obtain ⟨hp, rfl⟩ := peersetGetPeer_eq_some.mp hget
      obtain ⟨hplaced, -, hpush⟩ := h.placed.symm.move hp
      exact ⟨_, p, rfl,
        ⟨hplaced.symm, fun q hq => (hpush q).mpr (Or.inl (h.locked q hq)), h.tells⟩,
        (hpush p).mpr (Or.inr rfl), rfl⟩
  | none =>
      have hswarm := peersetGetPeer_eq_none.mp hget
      have hpop : ∀ p, p ∈ getPeers (popPeer t.swarmBucket i).1 → p ∈ getPeers t.swarmBucket :=
        fun p hp => ((LawfulPeerSet.mem_popPeer _ _ _).mp hp).1
      have hplaced : Placed t.heap t.neighbourhood (popPeer t.swarmBucket i).1 :=
        h.placed.mono (fun p hp => hp.imp_right (hpop p))
          fun p hp q hq => h.placed.disjoint p hp q (hpop q hq)
      -- the neighbour that is there then is the one that is locked
      have hlock : ∀ (heap : PeerHeap) (s : S) (p : Peer ID), peersetGetPeer s i = some p →
          (∀ q ∈ getPeers t.neighbourhood, q ∈ getPeers s) →
          Placed heap s (popPeer t.swarmBucket i).1 →
          TopologyInv { t with
            heap, swarmBucket := (popPeer t.swarmBucket i).1, neighbourhood := s,
            lockedNeighs := pushPeer t.lockedNeighs p } := by
        intro heap s p hp hsub hplaced
        refine ⟨hplaced, fun q hq => ?_, h.tells⟩
        rcases (LawfulPeerSet.mem_pushPeer _ _ _).mp hq with hq | ⟨rfl, -⟩
        · exact hsub q (h.locked q hq)
        · exact (peersetGetPeer_eq_some.mp hp).1
      simp only [peersetAddPeer]
      split_ifs with hcheck
      · obtain ⟨p, hp⟩ := Option.isSome_iff_exists.mp hcheck
        obtain ⟨hmem, hid⟩ := peersetGetPeer_eq_some.mp hp
        simp only [hp]
        exact ⟨_, p, rfl, hlock _ _ p hp (fun q hq => hq) hplaced, hmem, hid⟩
      · have hnew : ∀ p ∈ getPeers t.neighbourhood, p.id ≠ i := by
          refine peersetGetPeer_eq_none.mp ?_
          simpa [peersetCheck] using hcheck
        have hmem : ∀ q, q ∈ getPeers (pushPeer t.neighbourhood ⟨t.heap.next, i⟩)
            ↔ q ∈ getPeers t.neighbourhood ∨ q = ⟨t.heap.next, i⟩ := fun q =>
          mem_pushPeer_of_new hnew
        have hp : peersetGetPeer (pushPeer t.neighbourhood ⟨t.heap.next, i⟩) i
            = some ⟨t.heap.next, i⟩ :=
          peersetGetPeer_eq_some.mpr ⟨(hmem _).mpr (Or.inr rfl), rfl⟩
        simp only [hp]
        exact ⟨_, _, rfl, hlock _ _ _ hp (fun q hq => (hmem q).mpr (Or.inl hq))
          (hplaced.add hnew (fun q hq => hswarm q (hpop q hq)) now), (hmem _).mpr (Or.inr rfl), rfl⟩

/-- **A neighbour is removed**: it goes to the swarm bucket and is not locked any more. -/
theorem neighbourhoodRemovePeer_inv (h : TopologyInv t) (i : ID) :
    TopologyInv (t.neighbourhoodRemovePeer i) := by
  rw [neighbourhoodRemovePeer, popPeer_eq]
  have hlocked : ∀ q ∈ getPeers (popPeer t.lockedNeighs i).1,
      q ∈ getPeers (popPeer t.neighbourhood i).1 := by
    intro q hq
    obtain ⟨hq, hid⟩ := (LawfulPeerSet.mem_popPeer _ _ _).mp hq
    exact (LawfulPeerSet.mem_popPeer _ _ _).mpr ⟨h.locked q hq, hid⟩
  cases hget : peersetGetPeer t.neighbourhood i with
  | some p =>
      obtain ⟨hp, rfl⟩ := peersetGetPeer_eq_some.mp hget
      exact ⟨(h.placed.move hp).1, hlocked, h.tells⟩
  | none =>
      have hpop : ∀ p, p ∈ getPeers (popPeer t.neighbourhood i).1 → p ∈ getPeers t.neighbourhood :=
        fun p hp => ((LawfulPeerSet.mem_popPeer _ _ _).mp hp).1
      exact ⟨h.placed.mono (fun p hp => hp.imp_left (hpop p))
        fun p hp => h.placed.disjoint p (hpop p hp), hlocked, h.tells⟩

/-- **A peer is forgotten.** -/
lemma topologyRemovePeer_placed (h : Placed t.heap t.neighbourhood t.swarmBucket) (i : ID) :
    ∃ heap, t.topologyRemovePeer i = .ok { t with
        heap, neighbourhood := (popPeer t.neighbourhood i).1
        swarmBucket := (popPeer t.swarmBucket i).1
        lockedNeighs := (popPeer t.lockedNeighs i).1 }
      ∧ Placed heap (popPeer t.neighbourhood i).1 (popPeer t.swarmBucket i).1 := by
  obtain ⟨heap₁, hs₁, hp₁⟩ := h.remove i
  obtain ⟨heap₂, hs₂, hp₂⟩ := hp₁.symm.remove i
  refine ⟨heap₂, ?_, hp₂.symm⟩
  simp only [topologyRemovePeer, hs₁, Eval.ok_bind, hs₂]
  rfl

theorem topologyRemovePeer_inv (h : TopologyInv t) (i : ID) :
    ∃ t', t.topologyRemovePeer i = .ok t' ∧ TopologyInv t'
      ∧ (∀ p, p ∈ getPeers t'.neighbourhood ↔ p ∈ getPeers t.neighbourhood ∧ p.id ≠ i) := by
  obtain ⟨heap, hremove, hplaced⟩ := topologyRemovePeer_placed h.placed i
  refine ⟨_, hremove, ⟨hplaced, fun p hp => ?_, h.tells⟩, fun p => LawfulPeerSet.mem_popPeer _ _ _⟩
  obtain ⟨hp, hid⟩ := (LawfulPeerSet.mem_popPeer _ _ _).mp hp
  exact (LawfulPeerSet.mem_popPeer _ _ _).mpr ⟨h.locked p hp, hid⟩

/-- **A neighbourhood message**, from a known node or not. -/
theorem neighbourhoodMessageParse_inv (h : TopologyInv t) (source : ID) (type : UInt8)
    (m : Option Metadata) (now : ℤ) :
    ∃ t' sent, t.neighbourhoodMessageParse source type m now = .ok (t', sent) ∧ TopologyInv t' := by
  rw [neighbourhoodMessageParse]
  split_ifs
  · obtain ⟨t₁, p, hadd, hinv, hp, -⟩ := neighbourhoodAddPeer_inv h source now
    cases m with
    | none => exact ⟨t₁, [.bufferMap source], by simp [hadd], hinv⟩
    | some m =>
        obtain ⟨heap, hset, hinv⟩ := peerSetMetadata_inv hinv (Or.inl hp) m
        exact ⟨_, [.bufferMap source], by simp [hadd, hset], hinv⟩
  · exact ⟨_, _, rfl, neighbourhoodRemovePeer_inv h source⟩
  · obtain ⟨t₁, hremove, hinv, -⟩ := topologyRemovePeer_inv h source
    exact ⟨t₁, [], by simp [hremove], hinv⟩
  · exact ⟨t, _, rfl, h⟩

lemma handleNeighbourhoodMessage_inv (h : TopologyInv t) (source : ID) (type : UInt8)
    (m : Option Metadata) (now : ℤ) :
    ∃ t' sent, t.handleNeighbourhoodMessage source type m now = .ok (t', sent)
      ∧ TopologyInv t' := by
  rw [handleNeighbourhoodMessage]
  split_ifs
  · exact neighbourhoodMessageParse_inv h source type m now
  · exact ⟨t, [], rfl, h⟩

/-- **A peer is looked up**, and found if it is to be registered. -/
theorem nodeidToPeer_inv (h : TopologyInv t) (i : ID) (reg : Bool) (now : ℤ) :
    ∃ t' p sent, t.nodeidToPeer i reg now = .ok (t', p, sent) ∧ TopologyInv t'
      ∧ t'.topologyGetPeer i = p ∧ (reg = true → p ≠ none) := by
  rw [nodeidToPeer]
  split_ifs with hnew
  · have hinsert := topologyNodeInsert_inv h i now
    obtain ⟨t₁, p, hadd, hinv, hp, hid⟩ := neighbourhoodAddPeer_inv hinsert i now
    obtain ⟨q, hq⟩ := topologyGetPeer_isSome (Or.inl hp)
    rw [hid] at hq
    have htell := neighbourhoodSendMsg_eq hinv.placed (mem_of_topologyGetPeer hq).1 .add
    exact ⟨t₁, some q, [.bufferMap i, .neighbourhood q.id .add t₁.myMetadata],
      by simp [hadd, hq, hinv.tells, htell], hinv, hq, by simp⟩
  · refine ⟨t, _, [], rfl, h, rfl, fun hreg => ?_⟩
    simpa [hreg] using hnew

end Topology

end PeerStreamer
