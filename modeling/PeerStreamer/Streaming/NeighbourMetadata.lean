import PeerStreamer.Streaming.OfferTimer
import PeerStreamer.Streaming.TopologyRuns

/-!
# The metadata of neighbours

A peer object is created without metadata.  It gets them from a sample of the peer sampler, or from
a neighbourhood message that is long enough to hold them.  `trader_peer_neigh_size` reads those of a
neighbour and, unlike `peer_neigh_size`, does not ask whether there are any.

What an operation does to the metadata is a fact about the objects of the known peers (`Known`), so
every operation has a lemma that says who is a neighbour afterwards and whose metadata are there.
Neighbours can be weighed throughout a run exactly if nobody without metadata is ever made one
(`EntersDescribed`, `neighbours_weighed_iff`).
-/

namespace PeerStreamer

namespace Topology

open PsInstance

variable {ID S : Type}

/-! ## Objects -/

section Objects

variable {t t' : Topology S} {p q : Peer ID}

/-- Metadata are a matter of the object. -/
lemma described_congr (h : t'.heap.data p.ref = t.heap.data p.ref) :
    Described t' p ↔ Described t p := by
  rw [Described, Described, h]

/-- A new object has none. -/
lemma described_alloc (hfresh : t.heap.data t.heap.next = none) {now : ℤ}
    (h : t'.heap = t.heap.alloc now) : Described t' p ↔ Described t p := by
  by_cases hp : p.ref = t.heap.next
  · simp [Described, h, PeerHeap.alloc, hp, hfresh]
  · exact described_congr (by simp [h, PeerHeap.alloc, hp])

/-- Freeing objects leaves the others as they are. -/
lemma peersetFreeAll_data {h h' : PeerHeap} {ps : List (Peer ID)} {r : ℕ}
    (hfree : peersetFreeAll h ps = .ok h') (hr : r ∉ ps.map Peer.ref) : h'.data r = h.data r := by
  induction ps generalizing h with
  | nil =>
      cases hfree
      rfl
  | cons p ps ih =>
      simp only [peersetFreeAll, Eval.bind_eq_ok] at hfree
      obtain ⟨h₁, hone, hrest⟩ := hfree
      rw [List.map_cons, List.mem_cons, not_or] at hr
      rw [ih hrest hr.2, PeerHeap.data_of_free hone, Function.update_of_ne hr.1]

/-- What a removal takes out of a set, and which objects it leaves. -/
lemma peersetRemovePeer_data [DecidableEq ID] [PeerSet ID S] [LawfulPeerSet ID S] {h h' : PeerHeap}
    {s s' : S} {i : ID} (hremove : peersetRemovePeer h s i = .ok (h', s')) :
    (popPeer s i).1 = s'
      ∧ ∀ r, (∀ p ∈ getPeers s, p.id = i → r ≠ p.ref) → h'.data r = h.data r := by
  rw [peersetRemovePeer, popPeer_eq] at hremove
  cases hget : peersetGetPeer s i with
  | none =>
      rw [hget] at hremove
      cases hremove
      exact ⟨rfl, fun r _ => rfl⟩
  | some p =>
      simp only [hget, Eval.bind_eq_ok, Eval.pure_eq_ok, Except.ok.injEq, Prod.mk.injEq] at hremove
      obtain ⟨h₁, hfree, rfl, rfl⟩ := hremove
      obtain ⟨hp, hid⟩ := peersetGetPeer_eq_some.mp hget
      refine ⟨rfl, fun r hr => ?_⟩
      rw [PeerHeap.data_of_free hfree, Function.update_of_ne (hr p hp hid)]

/-- Setting the metadata of a peer. -/
lemma peerSetMetadata_described {m : Metadata} (h : t.peerSetMetadata p m = .ok t') :
    t'.neighbourhood = t.neighbourhood ∧ t'.swarmBucket = t.swarmBucket
      ∧ ∀ q : Peer ID, Described t' q ↔ q.ref = p.ref ∨ Described t q := by
  simp only [peerSetMetadata, Eval.bind_eq_ok, Eval.pure_eq_ok, Except.ok.injEq] at h
  obtain ⟨d, -, heap, hwrite, rfl⟩ := h
  refine ⟨rfl, rfl, fun q => ?_⟩
  have hdata := PeerHeap.data_of_write hwrite
  by_cases hq : q.ref = p.ref
  · simp [Described, hdata, hq]
  · simp [Described, hdata, hq]

/-- Noting that a peer has been heard from. -/
lemma peerSetBmapTimestamp_described {now : ℤ} (h : t.peerSetBmapTimestamp p now = .ok t') :
    t'.neighbourhood = t.neighbourhood ∧ ∀ q : Peer ID, Described t' q ↔ Described t q := by
  simp only [peerSetBmapTimestamp, Eval.bind_eq_ok, Eval.pure_eq_ok, Except.ok.injEq] at h
  obtain ⟨d, hread, heap, hwrite, rfl⟩ := h
  refine ⟨rfl, fun q => ?_⟩
  have hdata := PeerHeap.data_of_write hwrite
  by_cases hq : q.ref = p.ref
  · simp [Described, hdata, hq, PeerHeap.data_of_read hread]
  · simp [Described, hdata, hq]

end Objects

/-! ## Known peers -/

variable [PeerSet ID S]

/-- A peer that is in one of the two sets. -/
def Known (t : Topology S) (p : Peer ID) : Prop :=
  p ∈ getPeers t.neighbourhood ∨ p ∈ getPeers t.swarmBucket

/-- All neighbours have metadata. -/
def AllDescribed (t : Topology S) : Prop := ∀ p ∈ getPeers t.neighbourhood, Described t p

/-- The same neighbours with the same metadata. -/
lemma AllDescribed.of_eq {t t' : Topology S} (hall : AllDescribed t)
    (hneigh : t'.neighbourhood = t.neighbourhood)
    (hdesc : ∀ q : Peer ID, Described t' q ↔ Described t q) : AllDescribed t' := by
  intro q hq
  rw [hneigh] at hq
  exact (hdesc q).mpr (hall q hq)

/-- What the next object will be is nothing yet. -/
lemma next_fresh {t : Topology S} (h : TopologyInv t) : t.heap.data t.heap.next = none :=
  h.placed.bound _ le_rfl

lemma not_described_next {t : Topology S} (h : TopologyInv t) (i : ID) :
    ¬Described t ⟨t.heap.next, i⟩ := by
  rintro ⟨d, m, hd, -⟩
  rw [next_fresh h] at hd
  cases hd

variable [DecidableEq ID] [LawfulPeerSet ID S] {t t' : Topology S} {p q : Peer ID} {i : ID}
  {now : ℤ}

lemma eq_of_known (h : TopologyInv t) (hp : Known t p) (hq : Known t q) (hid : p.id = q.id) :
    p = q := by
  rcases hp with hp | hp <;> rcases hq with hq | hq
  · exact eq_of_id_eq hp hq hid
  · exact absurd hid (h.placed.disjoint p hp q hq)
  · exact absurd hid.symm (h.placed.disjoint q hq p hp)
  · exact eq_of_id_eq hp hq hid

lemma ref_eq_iff (h : TopologyInv t) (hp : Known t p) (hq : Known t q) :
    p.ref = q.ref ↔ p.id = q.id :=
  ⟨fun href => congrArg Peer.id (h.placed.owner p q hp hq href),
    fun hid => congrArg Peer.ref (eq_of_known h hp hq hid)⟩

/-- The peer that is found is the one that is known under the id. -/
lemma topologyGetPeer_eq_some (h : TopologyInv t) :
    t.topologyGetPeer i = some p ↔ Known t p ∧ p.id = i := by
  refine ⟨mem_of_topologyGetPeer, ?_⟩
  rintro ⟨hp, rfl⟩
  obtain ⟨q, hq⟩ := topologyGetPeer_isSome hp
  obtain ⟨hknown, hid⟩ := mem_of_topologyGetPeer hq
  rw [hq, eq_of_known h hknown hp hid]

/-! ## Single operations -/

/-- A peer that is unknown is added to the swarm bucket. -/
lemma addToSwarm_described (h : TopologyInv t) (hnew : t.topologyGetPeer i = none) (now : ℤ) :
    (t.addToSwarm i now).neighbourhood = t.neighbourhood
      ∧ (∀ p, Known t p → Known (t.addToSwarm i now) p)
      ∧ ∀ p : Peer ID, Described (t.addToSwarm i now) p ↔ Described t p := by
  rw [addToSwarm_eq hnew]
  refine ⟨rfl, fun p hp => hp.imp_right fun hp => ?_, fun p => ?_⟩
  · exact (mem_pushPeer_of_new (topologyGetPeer_eq_none.mp hnew).2).mpr (Or.inl hp)
  · exact described_alloc (next_fresh h) rfl

lemma topologyNodeInsert_described (h : TopologyInv t) (i : ID) (now : ℤ) :
    (t.topologyNodeInsert i now).neighbourhood = t.neighbourhood
      ∧ ∀ p : Peer ID, Described (t.topologyNodeInsert i now) p ↔ Described t p := by
  rw [topologyNodeInsert]
  split_ifs with hnew
  · obtain ⟨hneigh, -, hdesc⟩ := addToSwarm_described h hnew now
    exact ⟨hneigh, hdesc⟩
  · exact ⟨rfl, fun p => Iff.rfl⟩

/-- A node that was unknown is known without metadata then. -/
lemma topologyNodeInsert_not_described (h : TopologyInv t) (hnew : t.topologyGetPeer i = none)
    (hp : (t.topologyNodeInsert i now).topologyGetPeer i = some p) : ¬Described t p := by
  obtain ⟨h₁, h₂⟩ := topologyGetPeer_eq_none.mp hnew
  obtain ⟨hknown, hid⟩ := mem_of_topologyGetPeer hp
  rw [topologyNodeInsert, if_pos hnew, addToSwarm_eq hnew] at hknown
  rcases hknown with hp | hp
  · exact absurd hid (h₁ p hp)
  · rcases (mem_pushPeer_of_new h₂).mp hp with hp | rfl
    · exact absurd hid (h₂ p hp)
    · exact not_described_next h i

/-- **A neighbour is added**: the peer that is known under the id, or a new one. -/
lemma neighbourhoodAddPeer_described {sent : TopologyMessage ID} (h : TopologyInv t)
    (hadd : t.neighbourhoodAddPeer i now = .ok (t', p, sent)) :
    (∀ q, q ∈ getPeers t'.neighbourhood ↔ q ∈ getPeers t.neighbourhood ∨ q = p)
      ∧ (∀ q : Peer ID, Described t' q ↔ Described t q)
      ∧ (t.topologyGetPeer i = some p ∨ t.topologyGetPeer i = none ∧ ¬Described t p) := by
  rw [neighbourhoodAddPeer, popPeer_eq] at hadd
  cases hswarm : peersetGetPeer t.swarmBucket i with
  | some p' =>
      rw [hswarm] at hadd
      cases hadd
      obtain ⟨hp, rfl⟩ := peersetGetPeer_eq_some.mp hswarm
      exact ⟨fun q => mem_pushPeer_of_new fun r hr => h.placed.disjoint r hr p hp,
        fun q => Iff.rfl, Or.inl (by rw [topologyGetPeer, hswarm, Option.some_or])⟩
  | none =>
      simp only [hswarm, peersetAddPeer] at hadd
      split_ifs at hadd with hcheck
      · obtain ⟨p', hp⟩ := Option.isSome_iff_exists.mp hcheck
        rw [hp] at hadd
        cases hadd
        have hmem := (peersetGetPeer_eq_some.mp hp).1
        refine ⟨fun q => ⟨Or.inl, ?_⟩, fun q => Iff.rfl,
          Or.inl (by rw [topologyGetPeer, hswarm, Option.none_or, hp])⟩
        rintro (hq | rfl)
        · exact hq
        · exact hmem
      · have hnone : peersetGetPeer t.neighbourhood i = none := by simpa [peersetCheck] using hcheck
        have hmem : ∀ q, q ∈ getPeers (pushPeer t.neighbourhood ⟨t.heap.next, i⟩)
            ↔ q ∈ getPeers t.neighbourhood ∨ q = ⟨t.heap.next, i⟩ := fun q =>
          mem_pushPeer_of_new (peersetGetPeer_eq_none.mp hnone)
        have hp : peersetGetPeer (pushPeer t.neighbourhood ⟨t.heap.next, i⟩) i
            = some ⟨t.heap.next, i⟩ :=
          peersetGetPeer_eq_some.mpr ⟨(hmem _).mpr (Or.inr rfl), rfl⟩
        rw [hp] at hadd
        cases hadd
        exact ⟨hmem, fun q => described_alloc (next_fresh h) rfl,
          Or.inr ⟨by rw [topologyGetPeer, hswarm, hnone, Option.none_or], not_described_next h i⟩⟩

/-- **A peer is forgotten.** -/
lemma topologyRemovePeer_described (h : TopologyInv t) (hremove : t.topologyRemovePeer i = .ok t') :
    ∀ p, Known t' p → Known t p ∧ (p ∈ getPeers t'.neighbourhood → p ∈ getPeers t.neighbourhood)
      ∧ (Described t' p ↔ Described t p) := by
  simp only [topologyRemovePeer, Eval.bind_eq_ok, Eval.pure_eq_ok, Except.ok.injEq] at hremove
  obtain ⟨⟨heap₁, n⟩, h₁, ⟨heap₂, b⟩, h₂, rfl⟩ := hremove
  obtain ⟨rfl, hdata₁⟩ := peersetRemovePeer_data h₁
  obtain ⟨rfl, hdata₂⟩ := peersetRemovePeer_data h₂
  intro p hp
  have hknown : Known t p ∧ p.id ≠ i := by
    rcases hp with hp | hp
    · obtain ⟨hp, hid⟩ := (LawfulPeerSet.mem_popPeer _ _ _).mp hp
      exact ⟨Or.inl hp, hid⟩
    · obtain ⟨hp, hid⟩ := (LawfulPeerSet.mem_popPeer _ _ _).mp hp
      exact ⟨Or.inr hp, hid⟩
  -- the objects that are freed belong to other peers
  have hother : ∀ q, Known t q → q.id = i → p.ref ≠ q.ref := by
    rintro q hq rfl href
    exact hknown.2 ((ref_eq_iff h hknown.1 hq).mp href)
  refine ⟨hknown.1, fun hp => ((LawfulPeerSet.mem_popPeer _ _ _).mp hp).1, described_congr ?_⟩
  exact (hdata₂ _ fun q hq => hother q (Or.inr hq)).trans
    (hdata₁ _ fun q hq => hother q (Or.inl hq))

/-! ## The update -/

/-- A sampled peer is known then and has metadata; otherwise nothing changes. -/
lemma samplePeer_described {m : Metadata} {t₁ : Topology S} (h : TopologyInv t)
    (hknown : (if t.topologyGetPeer i = none then t.addToSwarm i now else t) = t₁)
    (hp : t₁.topologyGetPeer i = some p) (hset : t₁.peerSetMetadata p m = .ok t') :
    TopologyInv t' ∧ t'.neighbourhood = t.neighbourhood ∧ (∀ q, Known t q → Known t' q)
      ∧ Known t' p ∧ ∀ q : Peer ID, Described t' q ↔ q.ref = p.ref ∨ Described t q := by
  have hadd : TopologyInv t₁ ∧ t₁.neighbourhood = t.neighbourhood
      ∧ (∀ q, Known t q → Known t₁ q) ∧ ∀ q : Peer ID, Described t₁ q ↔ Described t q := by
    split_ifs at hknown with hnew
    · obtain rfl := hknown
      exact ⟨(addToSwarm_inv h hnew now).1, addToSwarm_described h hnew now⟩
    · obtain rfl := hknown
      exact ⟨h, rfl, fun q hq => hq, fun q => Iff.rfl⟩
  obtain ⟨hinv₁, hneigh₁, hknown₁, hdesc₁⟩ := hadd
  obtain ⟨hp₁, -⟩ := mem_of_topologyGetPeer hp
  obtain ⟨heap, hset', hinv'⟩ := peerSetMetadata_inv hinv₁ hp₁ m
  obtain rfl := Except.ok.inj (hset'.symm.trans hset)
  obtain ⟨-, -, hdesc⟩ := peerSetMetadata_described hset
  exact ⟨hinv', hneigh₁, hknown₁, hp₁, fun q => by rw [hdesc, hdesc₁]⟩

/-- **The sample** describes those that are in it. -/
lemma topologySamplePeers_described {sample : List (ID × Metadata)} (h : TopologyInv t)
    (hsample : t.topologySamplePeers now sample = .ok t') :
    TopologyInv t' ∧ t'.neighbourhood = t.neighbourhood ∧ (∀ q, Known t q → Known t' q)
      ∧ ∀ q, Known t' q → (Described t' q ↔ Described t q ∨ q.id ∈ sample.map Prod.fst) := by
  induction sample generalizing t with
  | nil =>
      cases hsample
      exact ⟨h, rfl, fun q hq => hq, by simp⟩
  | cons im sample ih =>
      obtain ⟨t₁, p, t₂, hknown, hp, hset, hrest⟩ := topologySamplePeers_cons hsample
      obtain ⟨hinv₂, hneigh₂, hknown₂, hp₂, hdesc₂⟩ := samplePeer_described h hknown hp hset
      obtain ⟨hinv, hneigh, hkeep, hdesc⟩ := ih hinv₂ hrest
      refine ⟨hinv, hneigh.trans hneigh₂, fun q hq => hkeep q (hknown₂ q hq), fun q hq => ?_⟩
      -- in the end the object is that of the id
      have hid : q.ref = p.ref ↔ q.id = im.1 := by
        rw [ref_eq_iff hinv hq (hkeep p hp₂), (mem_of_topologyGetPeer hp).2]
      rw [hdesc q hq, hdesc₂, hid, List.map_cons, List.mem_cons]
      exact or_assoc.trans or_left_comm

/-- **Inactive neighbours are dropped.** -/
lemma dropUnactivesLoop_described {told : ℤ} {is : List ℕ} (h : TopologyInv t)
    (hdrop : t.dropUnactivesLoop told is = .ok t') :
    ∀ p, Known t' p → Known t p ∧ (p ∈ getPeers t'.neighbourhood → p ∈ getPeers t.neighbourhood)
      ∧ (Described t' p ↔ Described t p) := by
  induction is generalizing t with
  | nil =>
      cases hdrop
      exact fun p hp => ⟨hp, id, Iff.rfl⟩
  | cons i is ih =>
      rcases dropUnactivesLoop_cons hdrop with rfl | hrest | ⟨j, t₁, hremove, hrest⟩
      · exact fun p hp => ⟨hp, id, Iff.rfl⟩
      · exact ih h hrest
      · obtain ⟨t₂, hremove', hinv, -⟩ := topologyRemovePeer_inv h j
        obtain rfl := Except.ok.inj (hremove'.symm.trans hremove)
        intro p hp
        obtain ⟨hp₁, hneigh₁, hdesc₁⟩ := ih hinv hrest p hp
        obtain ⟨hp₂, hneigh₂, hdesc₂⟩ := topologyRemovePeer_described h hremove p hp₁
        exact ⟨hp₂, fun hp => hneigh₂ (hneigh₁ hp), hdesc₁.trans hdesc₂⟩

/-- Before the exchange, known peers have the metadata they had or were sampled with. -/
lemma topologyRefresh_described {u : UpdateInput ID} (h : TopologyInv t)
    (hrefresh : t.topologyRefresh u = .ok t') :
    TopologyInv t' ∧ ∀ p, Known t' p →
      (p ∈ getPeers t'.neighbourhood → p ∈ getPeers t.neighbourhood)
      ∧ (Described t' p ↔ Described t p ∨ p.id ∈ u.sample.map Prod.fst) := by
  obtain ⟨t₀, hrefresh₀, hinv⟩ := topologyRefresh_inv h u
  obtain rfl := Except.ok.inj (hrefresh₀.symm.trans hrefresh)
  refine ⟨hinv, ?_⟩
  have hmeta : TopologyInv (t.updateMetadata u.cbSize) := ⟨h.placed, h.locked, h.tells⟩
  simp only [topologyRefresh, Eval.bind_eq_ok] at hrefresh
  obtain ⟨t₁, hsample, hdrop⟩ := hrefresh
  obtain ⟨hinv₁, hneigh₁, -, hdesc₁⟩ := topologySamplePeers_described hmeta hsample
  have hneigh : ∀ p, p ∈ getPeers t₁.neighbourhood → p ∈ getPeers t.neighbourhood := fun p hp => by
    rwa [hneigh₁] at hp
  split_ifs at hdrop
  · intro p hp
    obtain ⟨hp₁, hkeep, hdesc⟩ := dropUnactivesLoop_described hinv₁ hdrop p hp
    exact ⟨fun hp => hneigh p (hkeep hp), hdesc.trans (hdesc₁ p hp₁)⟩
  · cases hdrop
    exact fun p hp => ⟨hneigh p, hdesc₁ p hp⟩

/-- The peers that `topology_update_random` draws from the swarm bucket. -/
def randomDraw (t : Topology S) (discard add : ℕ → Fin (RAND_MAX + 1)) : Eval (List (Peer ID)) := do
  let discardNum := ⌊(1 - t.topoMem) * peersetSize t.neighbourhood⌋
  let (neighbourhood, swarmBucket) ←
    topologyMovePeers t.neighbourhood t.swarmBucket discardNum discard
  let othersNum := max (t.neighbourhoodTargetSize - peersetSize neighbourhood) 0
  return (arrayShuffle add (getPeers swarmBucket)).take othersNum.toNat

/-- **The draw** decides who becomes a neighbour. -/
lemma topologyUpdateRandom_draw (h : Placed t.heap t.neighbourhood t.swarmBucket)
    (discard add : ℕ → Fin (RAND_MAX + 1)) :
    ∃ neighbourhood swarmBucket ps,
      t.topologyUpdateRandom discard add = .ok { t with neighbourhood, swarmBucket }
      ∧ Placed t.heap neighbourhood swarmBucket ∧ t.randomDraw discard add = .ok ps
      ∧ (∀ p ∈ ps, Known t p)
      ∧ (∀ p ∈ getPeers neighbourhood, p ∈ getPeers t.neighbourhood ∨ p ∈ ps)
      ∧ ∀ p ∈ ps, p ∈ getPeers neighbourhood := by
  obtain ⟨n₁, b₁, hmove₁, hplaced₁, hunion₁, hmoved₁⟩ := topologyMovePeers_placed h
    ⌊(1 - t.topoMem) * peersetSize t.neighbourhood⌋ discard
  obtain ⟨b₂, n₂, hmove₂, hplaced₂, -, hmoved₂⟩ := topologyMovePeers_placed hplaced₁.symm
    (max (t.neighbourhoodTargetSize - peersetSize n₁) 0) add
  -- who is still a neighbour after the first move was one before
  have hstay : ∀ p ∈ getPeers n₁, p ∈ getPeers t.neighbourhood := by
    intro p hp
    rcases (hunion₁ p).mp (Or.inl hp) with hp' | hp'
    · exact hp'
    · exact absurd rfl (hplaced₁.disjoint p hp p ((hmoved₁ p).mpr (Or.inl hp')))
  refine ⟨n₂, b₂, _, by simp [topologyUpdateRandom, hmove₁, hmove₂], hplaced₂.symm,
    by simp only [randomDraw, hmove₁, Eval.ok_bind]; rfl, fun p hp => ?_, fun p hp => ?_,
    fun p hp => (hmoved₂ p).mpr (Or.inr hp)⟩
  · have hp₁ := (arrayShuffle_perm add (getPeers b₁)).mem_iff.mp (List.mem_of_mem_take hp)
    exact (hunion₁ p).mp (Or.inr hp₁)
  · exact ((hmoved₂ p).mp hp).imp_left (hstay p)

/-- **The exchange** leaves all neighbours with metadata if those that are drawn have them. -/
lemma topologyExchange_described {u : UpdateInput ID} {sent : List (TopologyMessage ID)}
    (h : TopologyInv t) (hall : AllDescribed t) (hex : t.topologyExchange u = .ok (t', sent)) :
    ∃ ps, t.randomDraw u.discard u.add = .ok ps ∧ (∀ p ∈ ps, Known t p)
      ∧ (AllDescribed t' ↔ ∀ p ∈ ps, Described t p) := by
  obtain ⟨n, b, ps, hrandom, hplaced, hdraw, hknown, hneigh, hdrawn⟩ :=
    topologyUpdateRandom_draw h.placed u.discard u.add
  simp only [topologyExchange, hrandom, Eval.ok_bind, peersetDestroyReferenceCopy_eq,
    Eval.bind_eq_ok, Eval.pure_eq_ok, Except.ok.injEq, Prod.mk.injEq] at hex
  obtain ⟨-, -, heap, hfree, rfl, -⟩ := hex
  -- the objects that are freed are not those of neighbours
  have hkept : ∀ p ∈ getPeers n, heap.data p.ref = t.heap.data p.ref := by
    intro p hp
    refine peersetFreeAll_data hfree fun hmem => ?_
    obtain ⟨q, hq, href⟩ := List.mem_map.mp hmem
    obtain rfl := hplaced.owner q p (Or.inr hq) (Or.inl hp) href
    exact hplaced.disjoint q hp q hq rfl
  refine ⟨ps, hdraw, hknown, fun hall' p hp => ?_, fun hps p hp => ?_⟩
  · have hp' := hdrawn p hp
    exact (described_congr (hkept p hp')).mp (hall' p hp')
  · refine (described_congr (hkept p hp)).mpr ?_
    rcases hneigh p hp with hp | hp
    · exact hall p hp
    · exact hps p hp

/-- The peers that an update draws. -/
def updateDraw (t : Topology S) (u : UpdateInput ID) : Eval (List (Peer ID)) := do
  let t ← t.topologyRefresh u
  t.randomDraw u.discard u.add

/-- **One update.** -/
lemma topologyUpdate_described {u : UpdateInput ID} {sent : List (TopologyMessage ID)}
    (h : TopologyInv t) (hall : AllDescribed t) (hupdate : t.topologyUpdate u = .ok (t', sent)) :
    AllDescribed t' ↔ ∀ ps, t.updateDraw u = .ok ps →
      ∀ p ∈ ps, Described t p ∨ p.id ∈ u.sample.map Prod.fst := by
  simp only [topologyUpdate, Eval.bind_eq_ok] at hupdate
  obtain ⟨t₁, hrefresh, hex⟩ := hupdate
  obtain ⟨hinv, hdesc⟩ := topologyRefresh_described h hrefresh
  have hall₁ : AllDescribed t₁ := fun p hp =>
    (hdesc p (Or.inl hp)).2.mpr (Or.inl (hall p ((hdesc p (Or.inl hp)).1 hp)))
  obtain ⟨ps, hdraw, hknown, hiff⟩ := topologyExchange_described hinv hall₁ hex
  have hdraw' : t.updateDraw u = .ok ps := by
    simp only [updateDraw, hrefresh, Eval.ok_bind, hdraw]
  rw [hiff, hdraw']
  constructor
  · intro hps ps' heq p hp
    obtain rfl := Except.ok.inj heq
    exact (hdesc p (hknown p hp)).2.mp (hps p hp)
  · intro hps p hp
    exact (hdesc p (hknown p hp)).2.mpr (hps ps rfl p hp)

/-! ## Runs -/

/-- Whoever becomes a neighbour by the operation has metadata or gets them: an unknown node is not
registered, a node that introduces itself sends its metadata or is known with some, and those that
are drawn by an update have metadata or are in its sample. -/
def EntersDescribed (t : Topology S) : TopologyOp ID → Prop
  | .nodeInsert _ _ => True
  | .lookUp i reg _ => t.topologyGetPeer i = none → reg = false
  | .message source type m _ =>
      t.topoIn = true → type = 0 → m = none →
        ∃ p, t.topologyGetPeer source = some p ∧ Described t p
  | .heard _ _ => True
  | .update u => ∀ ps, t.updateDraw u = .ok ps →
      ∀ p ∈ ps, Described t p ∨ p.id ∈ u.sample.map Prod.fst

/-- A neighbour is added, and nothing else changes. -/
lemma allDescribed_add {sent : TopologyMessage ID} (h : TopologyInv t) (hall : AllDescribed t)
    (hadd : t.neighbourhoodAddPeer i now = .ok (t', p, sent)) :
    AllDescribed t' ↔ ∃ p, t.topologyGetPeer i = some p ∧ Described t p := by
  obtain ⟨hmem, hdesc, hp⟩ := neighbourhoodAddPeer_described h hadd
  have hiff : AllDescribed t' ↔ Described t p := by
    refine ⟨fun hall' => (hdesc p).mp (hall' p ((hmem p).mpr (Or.inr rfl))), fun hp q hq => ?_⟩
    rcases (hmem q).mp hq with hq | rfl
    · exact (hdesc q).mpr (hall q hq)
    · exact (hdesc q).mpr hp
  rw [hiff]
  rcases hp with hp | ⟨hnone, hp⟩
  · simp [hp]
  · simp [hnone, hp]

/-- **A message.** -/
lemma handleNeighbourhoodMessage_described {source : ID} {type : UInt8} {m : Option Metadata}
    {sent : List (TopologyMessage ID)} (h : TopologyInv t) (hall : AllDescribed t)
    (hmsg : t.handleNeighbourhoodMessage source type m now = .ok (t', sent)) :
    AllDescribed t' ↔ (t.topoIn = true → type = 0 → m = none →
      ∃ p, t.topologyGetPeer source = some p ∧ Described t p) := by
  rcases handleNeighbourhoodMessage_cases hmsg with
    ⟨⟨hin, htype⟩, t₁, p, msg, hadd, ⟨rfl, rfl⟩ | ⟨d, rfl, hset⟩⟩ | ⟨hnot, hrest⟩
  · simp [allDescribed_add h hall hadd, hin, htype]
  · obtain ⟨hmem, hdesc, -⟩ := neighbourhoodAddPeer_described h hadd
    obtain ⟨hneigh, -, hdesc'⟩ := peerSetMetadata_described hset
    refine iff_of_true (fun q hq => ?_) (by simp)
    rw [hneigh, hmem] at hq
    rw [hdesc', hdesc]
    rcases hq with hq | rfl
    · exact Or.inr (hall q hq)
    · exact Or.inl rfl
  · refine iff_of_true (fun q hq => ?_) fun hin htype => absurd ⟨hin, htype⟩ hnot
    rcases hrest with rfl | rfl | hremove
    · exact hall q hq
    · exact hall q ((LawfulPeerSet.mem_popPeer _ _ _).mp hq).1
    · obtain ⟨-, hneigh, hdesc⟩ := topologyRemovePeer_described h hremove q (Or.inl hq)
      exact hdesc.mpr (hall q (hneigh hq))

/-- **A look-up.** -/
lemma nodeidToPeer_described {reg : Bool} {found : Option (Peer ID)}
    {sent : List (TopologyMessage ID)} (h : TopologyInv t) (hall : AllDescribed t)
    (hlook : t.nodeidToPeer i reg now = .ok (t', found, sent)) :
    AllDescribed t' ↔ (t.topologyGetPeer i = none → reg = false) := by
  rcases nodeidToPeer_cases hlook with ⟨hnone, hreg, p, msg, hadd⟩ | ⟨hknown, rfl⟩
  · obtain ⟨hneigh, hdesc⟩ := topologyNodeInsert_described h i now
    have hall₁ := hall.of_eq hneigh hdesc
    -- the node is registered under an object that has just been created
    have hnot : ¬AllDescribed t' := by
      rw [allDescribed_add (topologyNodeInsert_inv h i now) hall₁ hadd]
      rintro ⟨q, hq, hq'⟩
      exact topologyNodeInsert_not_described h hnone hq ((hdesc q).mp hq')
    exact iff_of_false hnot (by simp [hnone, hreg])
  · refine iff_of_true hall fun hnone => ?_
    simpa [hnone] using hknown

/-- **One operation** leaves all neighbours with metadata exactly if whoever enters has them. -/
lemma topologyStep_described {op : TopologyOp ID} {sent : List (TopologyMessage ID)}
    (h : TopologyInv t) (hall : AllDescribed t) (hstep : t.topologyStep op = .ok (t', sent)) :
    AllDescribed t' ↔ EntersDescribed t op := by
  cases op with
  | nodeInsert i now =>
      cases hstep
      obtain ⟨hneigh, hdesc⟩ := topologyNodeInsert_described h i now
      exact iff_of_true (hall.of_eq hneigh hdesc) trivial
  | lookUp i reg now =>
      simp only [topologyStep, Eval.bind_eq_ok, Eval.pure_eq_ok, Except.ok.injEq,
        Prod.mk.injEq] at hstep
      obtain ⟨⟨t₁, p, sent₁⟩, hlook, rfl, -⟩ := hstep
      exact nodeidToPeer_described h hall hlook
  | message source type m now => exact handleNeighbourhoodMessage_described h hall hstep
  | heard i now =>
      simp only [topologyStep] at hstep
      cases hp : t.topologyGetPeer i with
      | none =>
          simp only [hp] at hstep
          cases hstep
          exact iff_of_true hall trivial
      | some p =>
          simp only [hp, Eval.bind_eq_ok, Eval.pure_eq_ok, Except.ok.injEq, Prod.mk.injEq] at hstep
          obtain ⟨t₁, hstamp, rfl, -⟩ := hstep
          obtain ⟨hneigh, hdesc⟩ := peerSetBmapTimestamp_described hstamp
          exact iff_of_true (hall.of_eq hneigh hdesc) trivial
  | update u => exact topologyUpdate_described h hall hstep

/-- **Neighbours can be weighed.**  In every run, all neighbours can be weighed in every state the
run goes through if and only if no operation makes a peer without metadata a neighbour. -/
theorem neighbours_weighed_iff (neighbourhoodSize peerTimeout : ℤ) (cbSize : ℕ)
    (ops : List (TopologyOp ID)) :
    (∀ pre, pre <+: ops → ∀ (t : Topology S) outs,
        exec topologyStep (topologyInit neighbourhoodSize peerTimeout cbSize) pre = .ok (t, outs) →
        ∀ p ∈ getPeers t.neighbourhood, ∃ x, peerEvaluationTurbo t p = .ok x)
      ↔ Along topologyStep EntersDescribed
        (topologyInit neighbourhoodSize peerTimeout cbSize : Topology S) ops := by
  have hweigh : ∀ t : Topology S, (∀ p ∈ getPeers t.neighbourhood,
      ∃ x, peerEvaluationTurbo t p = .ok x) ↔ AllDescribed t := fun t =>
    forall₂_congr fun p _ => ⟨fun ⟨x, hx⟩ => described_of_peerEvaluationTurbo hx, fun hp =>
      have ⟨x, hx, _⟩ := peerEvaluationTurbo_of_described hp
      ⟨x, hx⟩⟩
  have hempty : AllDescribed (topologyInit neighbourhoodSize peerTimeout cbSize : Topology S) := by
    simp [AllDescribed, topologyInit, updateMetadata]
  rw [along_iff_always (fun _ op h => topologyStep_inv h op)
    (fun _ _ _ _ h hall hstep => topologyStep_described h hall hstep)
    (topologyInit_inv neighbourhoodSize peerTimeout cbSize) hempty]
  exact forall₄_congr fun pre _ t outs => imp_congr_right fun _ => hweigh t

/-- A node introduces itself with its metadata, and is looked up then. -/
theorem neighbours_weighed_iff_introduced :
    Along topologyStep EntersDescribed (topologyInit 30 10 50 : Topology (PeerList ℕ))
        [.message 7 0 (some ⟨50, 3⟩) 0, .lookUp 7 true 1]
      ∧ ∀ pre, pre <+: [.message 7 0 (some ⟨50, 3⟩) 0, .lookUp 7 true 1] →
        ∀ (t : Topology (PeerList ℕ)) outs,
          exec topologyStep (topologyInit 30 10 50) pre = .ok (t, outs) →
          ∀ p ∈ getPeers t.neighbourhood, ∃ x, peerEvaluationTurbo t p = .ok x := by
  have halong : Along topologyStep EntersDescribed (topologyInit 30 10 50 : Topology (PeerList ℕ))
      [.message 7 0 (some ⟨50, 3⟩) 0, .lookUp 7 true 1] := by
    refine ⟨fun _ _ hnone => ?_, fun t sent hstep => ⟨fun hnone => ?_, fun _ _ _ => trivial⟩⟩
    · cases hnone
    · cases hstep
      cases hnone
  exact ⟨halong, (neighbours_weighed_iff 30 10 50 _).mpr halong⟩

/-- A node that introduces itself with a type byte alone becomes a neighbour without metadata. -/
theorem not_neighbours_weighed :
    ¬∀ (neighbourhoodSize peerTimeout : ℤ) (cbSize : ℕ) (ops : List (TopologyOp ℕ))
      (t : Topology (PeerList ℕ)) (outs : List (List (TopologyMessage ℕ))),
      exec topologyStep (topologyInit neighbourhoodSize peerTimeout cbSize) ops = .ok (t, outs) →
      ∀ p ∈ getPeers t.neighbourhood, ∃ x, peerEvaluationTurbo t p = .ok x := by
  intro h
  obtain ⟨x, hx⟩ := h 30 10 50 [.message 7 0 none 0] _ _ rfl ⟨0, 7⟩ (List.mem_singleton.mpr rfl)
  cases hx

end Topology

end PeerStreamer
