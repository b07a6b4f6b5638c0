import PeerStreamer.Foundation.ListFacts
import PeerStreamer.Streaming.TopologySets

/-!
# One update of the topology

The exchange of peers is a move between two sets that leaves their union as it is, whatever is
drawn.  The reference copy keeps the old neighbours, all of which still exist when they are told
about the change, and what is sent to a node is decided by whether it was a neighbour before and is
one after (`owed`).
-/

namespace PeerStreamer

/-! ## Shuffling -/

section Shuffle

variable {α : Type} (rand : ℕ → Fin (RAND_MAX + 1))

lemma arrayShuffleStep_perm (b : List α) (i : ℕ) : (arrayShuffleStep rand b i).Perm b := by
  simp only [arrayShuffleStep]
  split
  · rename_i x y hx hy
    obtain ⟨hi, rfl⟩ := List.getElem?_eq_some_iff.mp hx
    obtain ⟨hj, rfl⟩ := List.getElem?_eq_some_iff.mp hy
    exact List.set_set_perm hj hi
  · rfl

/-- Shuffling keeps the elements. -/
lemma arrayShuffle_perm (b : List α) : (arrayShuffle rand b).Perm b := by
  suffices h : ∀ (is : List ℕ) (c : List α), c.Perm b → (is.foldl (arrayShuffleStep rand) c).Perm b
    from h _ b (List.Perm.refl b)
  intro is
  induction is with
  | nil => exact fun c hc => hc
  | cons i is ih => exact fun c hc => ih _ ((arrayShuffleStep_perm rand c i).trans hc)

end Shuffle

variable {ID S : Type} [PeerSet ID S]

/-- Freeing a list of different objects. -/
lemma peersetFreeAll_eq {h : PeerHeap} {ps : List (Peer ID)} (hnd : (ps.map Peer.ref).Nodup)
    (hlive : ∀ p ∈ ps, h.data p.ref ≠ none) :
    ∃ h', peersetFreeAll h ps = .ok h' ∧ h'.next = h.next
      ∧ ∀ r, h'.data r = if r ∈ ps.map Peer.ref then none else h.data r := by
  induction ps generalizing h with
  | nil => exact ⟨h, rfl, rfl, by simp⟩
  | cons p ps ih =>
      rw [List.map_cons, List.nodup_cons] at hnd
      obtain ⟨d, hd⟩ := Option.ne_none_iff_exists'.mp (hlive p (by simp))
      have hfree : h.free p.ref = .ok { h with data := Function.update h.data p.ref none } := by
        simp [PeerHeap.free, PeerHeap.read, hd]
      have hrest : ∀ q ∈ ps, Function.update h.data p.ref none q.ref ≠ none := by
        intro q hq
        have hne : q.ref ≠ p.ref := fun he => hnd.1 (he ▸ List.mem_map_of_mem hq)
        simpa [hne] using hlive q (by simp [hq])
      obtain ⟨h', hall, hnext, hdata⟩ :=
        ih (h := { h with data := Function.update h.data p.ref none }) hnd.2 hrest
      refine ⟨h', by simp [peersetFreeAll, hfree, hall], hnext, fun r => ?_⟩
      rw [hdata]
      by_cases hr : r = p.ref
      · simp [hr]
      · simp [hr]

variable [DecidableEq ID]

/-- The signals to some known peers. -/
lemma Topology.signal_eq {t : Topology S} (h : Placed t.heap t.neighbourhood t.swarmBucket)
    (kind : NeighbourhoodMsg) (other : S) {ps : List (Peer ID)}
    (hps : ∀ p ∈ ps, p ∈ getPeers t.neighbourhood ∨ p ∈ getPeers t.swarmBucket) :
    t.signal kind other ps = .ok ((ps.filter (fun p => !peersetCheck other p.id)).map
      fun p => .neighbourhood p.id kind t.myMetadata) := by
  induction ps with
  | nil => rfl
  | cons p ps ih =>
      have htail := ih fun q hq => hps q (by simp [hq])
      rw [signal]
      split_ifs with hcheck
      · simp [hcheck, htail]
      · simp [hcheck, htail, neighbourhoodSendMsg_eq h (hps p (by simp)) kind]

variable [LawfulPeerSet ID S]

/-! ## Moving peers -/

section Move

variable {h : PeerHeap} {s₁ s₂ : S}

/-- **Peers of the first set are moved to the second**, one after the other. -/
lemma topologyMovePeersLoop_apart (hd : Apart s₁ s₂) {qs : List (Peer ID)}
    (hnd : (qs.map Peer.id).Nodup) (hmem : ∀ q ∈ qs, q ∈ getPeers s₁) :
    ∃ s₁' s₂', topologyMovePeersLoop s₁ s₂ qs = .ok (s₁', s₂') ∧ Apart s₁' s₂'
      ∧ (∀ p, p ∈ getPeers s₁' ∨ p ∈ getPeers s₂' ↔ p ∈ getPeers s₁ ∨ p ∈ getPeers s₂)
      ∧ ∀ p, p ∈ getPeers s₂' ↔ p ∈ getPeers s₂ ∨ p ∈ qs := by
  induction qs generalizing s₁ s₂ with
  | nil => exact ⟨s₁, s₂, rfl, hd, fun _ => Iff.rfl, by simp⟩
  | cons q qs ih =>
      have hq : q ∈ getPeers s₁ := hmem q (by simp)
      rw [List.map_cons, List.nodup_cons] at hnd
      obtain ⟨hapart, hunion, hpush⟩ := hd.move hq
      have hrest : ∀ r ∈ qs, r ∈ getPeers (popPeer s₁ q.id).1 := by
        intro r hr
        refine (LawfulPeerSet.mem_popPeer _ _ _).mpr ⟨hmem r (by simp [hr]), fun he => hnd.1 ?_⟩
        rw [← he]
        exact List.mem_map_of_mem hr
      obtain ⟨s₁', s₂', hloop, hapart', hunion', hmoved⟩ := ih hapart hnd.2 hrest
      refine ⟨s₁', s₂', ?_, hapart', fun p => (hunion' p).trans (hunion p), fun p => ?_⟩
      · rw [topologyMovePeersLoop, popPeer_eq, peersetGetPeer_eq_some.mpr ⟨hq, rfl⟩]
        exact hloop
      · rw [hmoved, hpush, List.mem_cons, or_assoc]

lemma topologyMovePeers_apart (hd : Apart s₁ s₂) (num : ℤ) (rand : ℕ → Fin (RAND_MAX + 1)) :
    ∃ s₁' s₂', topologyMovePeers s₁ s₂ num rand = .ok (s₁', s₂') ∧ Apart s₁' s₂'
      ∧ (∀ p, p ∈ getPeers s₁' ∨ p ∈ getPeers s₂' ↔ p ∈ getPeers s₁ ∨ p ∈ getPeers s₂)
      ∧ ∀ p, p ∈ getPeers s₂' ↔
        p ∈ getPeers s₂ ∨ p ∈ (arrayShuffle rand (getPeers s₁)).take num.toNat := by
  have hperm := arrayShuffle_perm rand (getPeers s₁)
  refine topologyMovePeersLoop_apart hd ?_ fun q hq => hperm.mem_iff.mp (List.mem_of_mem_take hq)
  have hnd : ((arrayShuffle rand (getPeers s₁)).map Peer.id).Nodup :=
    (hperm.map Peer.id).nodup_iff.mpr (LawfulPeerSet.keyed s₁)
  exact hnd.sublist ((List.take_sublist _ _).map _)

/-- The objects stay where they are. -/
lemma topologyMovePeers_placed (hp : Placed h s₁ s₂) (num : ℤ) (rand : ℕ → Fin (RAND_MAX + 1)) :
    ∃ s₁' s₂', topologyMovePeers s₁ s₂ num rand = .ok (s₁', s₂') ∧ Placed h s₁' s₂'
      ∧ (∀ p, p ∈ getPeers s₁' ∨ p ∈ getPeers s₂' ↔ p ∈ getPeers s₁ ∨ p ∈ getPeers s₂)
      ∧ ∀ p, p ∈ getPeers s₂' ↔
        p ∈ getPeers s₂ ∨ p ∈ (arrayShuffle rand (getPeers s₁)).take num.toNat := by
  obtain ⟨s₁', s₂', hmove, hapart, hunion, hmoved⟩ := topologyMovePeers_apart hp.disjoint num rand
  exact ⟨s₁', s₂', hmove, hp.mono (fun p => (hunion p).mp) hapart, hunion, hmoved⟩

end Move

/-! ## Copies -/

section Copies

variable {s : S} {p : Peer ID}

lemma mem_foldl_pushPeer {qs : List (Peer ID)} (hnd : (qs.map Peer.id).Nodup)
    (hnew : ∀ p ∈ getPeers s, ∀ q ∈ qs, p.id ≠ q.id) :
    p ∈ getPeers (qs.foldl pushPeer s) ↔ p ∈ getPeers s ∨ p ∈ qs := by
  induction qs generalizing s with
  | nil => simp
  | cons q qs ih =>
      rw [List.map_cons, List.nodup_cons] at hnd
      have hpush : ∀ p, p ∈ getPeers (pushPeer s q) ↔ p ∈ getPeers s ∨ p = q := fun p =>
        mem_pushPeer_of_new fun r hr => hnew r hr q (by simp)
      rw [List.foldl_cons, ih hnd.2, hpush, List.mem_cons, or_assoc]
      intro r hr r' hr'
      rcases (hpush r).mp hr with hr | rfl
      · exact hnew r hr r' (by simp [hr'])
      · intro he
        refine hnd.1 ?_
        rw [he]
        exact List.mem_map_of_mem hr'

/-- A reference copy has the same peers. -/
lemma mem_peersetCreateReferenceCopy :
    p ∈ getPeers (peersetCreateReferenceCopy s) ↔ p ∈ getPeers s := by
  rw [peersetCreateReferenceCopy, mem_foldl_pushPeer (LawfulPeerSet.keyed s) (by simp)]
  simp

/-- Popping the first peer as often as there are peers empties a set. -/
lemma getPeers_peersetPopAll {n : ℕ} (hn : peersetSize s ≤ n) :
    getPeers (peersetPopAll s n) = [] := by
  induction n generalizing s with
  | zero => exact List.length_eq_zero_iff.mp (Nat.le_zero.mp hn)
  | succ n ih =>
      rw [peersetPopAll]
      split
      · assumption
      · rename_i p ps hs
        refine ih ?_
        have hp : p ∈ getPeers s := by simp [hs]
        have hnd : (p :: getPeers (popPeer s p.id).1).Nodup :=
          List.nodup_cons.mpr ⟨by simp, nodup_getPeers _⟩
        have hsub : p :: getPeers (popPeer s p.id).1 ⊆ getPeers s := by
          intro q hq
          rcases List.mem_cons.mp hq with rfl | hq
          · exact hp
          · exact ((LawfulPeerSet.mem_popPeer _ _ _).mp hq).1
        have hlen := (List.subperm_of_subset hnd hsub).length_le
        rw [List.length_cons] at hlen
        exact Nat.le_of_lt_succ (Nat.lt_of_lt_of_le hlen hn)

/-- Destroying a reference copy frees no peer. -/
lemma peersetDestroyReferenceCopy_eq (h : PeerHeap) (s : S) :
    peersetDestroyReferenceCopy h s = .ok h := by
  rw [peersetDestroyReferenceCopy, getPeers_peersetPopAll le_rfl]
  rfl

lemma mem_foldl_popPeer {qs : List (Peer ID)} :
    p ∈ getPeers (qs.foldl (fun s q => (popPeer s q.id).1) s)
      ↔ p ∈ getPeers s ∧ ∀ q ∈ qs, p.id ≠ q.id := by
  induction qs generalizing s with
  | nil => simp
  | cons q qs ih => simp [ih, and_assoc]

end Copies

/-! ## Forgetting peers -/

/-- The second set is freed and cleared. -/
lemma Placed.clear {h : PeerHeap} {s₁ s₂ : S} (hp : Placed h s₁ s₂) :
    ∃ h', peersetFreeAll h (getPeers s₂) = .ok h' ∧ Placed h' s₁ (PeerSet.clear s₂) := by
  have hnd : ((getPeers s₂).map Peer.ref).Nodup :=
    (nodup_getPeers s₂).map_on fun p hm q hq => hp.owner p q (Or.inr hm) (Or.inr hq)
  obtain ⟨h', hall, hnext, hdata⟩ := peersetFreeAll_eq hnd fun p hm => hp.live p (Or.inr hm)
  refine ⟨h', hall, by simp, fun p q hm hq => ?_, fun p hm => ?_, fun r hr => ?_⟩
  · exact hp.owner p q (by simpa using Or.inl hm) (by simpa using Or.inl hq)
  · have hm : p ∈ getPeers s₁ := by simpa using hm
    have hout : p.ref ∉ (getPeers s₂).map Peer.ref := by
      rintro hin
      obtain ⟨q, hq, he⟩ := List.mem_map.mp hin
      obtain rfl := hp.owner q p (Or.inr hq) (Or.inl hm) he
      exact hp.disjoint q hm q hq rfl
    rw [hdata, if_neg hout]
    exact hp.live p (Or.inl hm)
  · rw [hdata, hp.bound r (hnext ▸ hr)]
    simp

/-! ## Signalling -/

/-- What a node is sent when the neighbours `old` have become `new`. -/
def owed (old new : S) (m : Metadata) (i : ID) : List (TopologyMessage ID) :=
  match peersetCheck old i, peersetCheck new i with
  | false, true => [.neighbourhood i .add m]
  | true, false => [.neighbourhood i .remove m]
  | _, _ => []

/-- The peers of a set with one id. -/
lemma filter_getPeers (s : S) (i : ID) :
    (getPeers s).filter (·.id = i) = (peersetGetPeer s i).toList :=
  filter_eq_toList_find? (LawfulPeerSet.keyed s) i

namespace Topology

variable {t : Topology S} {p : Peer ID} {i : ID}

/-- The signals for one node. -/
lemma filter_signals (s other : S) (kind : NeighbourhoodMsg) (m : Metadata) (i : ID) :
    (((getPeers s).filter (fun p => !peersetCheck other p.id)).map
        fun p => TopologyMessage.neighbourhood p.id kind m).filter (·.dst = i)
      = if peersetCheck s i ∧ peersetCheck other i = false
        then [.neighbourhood i kind m] else [] := by
  have hfilter : ((getPeers s).filter (fun p => !peersetCheck other p.id)).filter (·.id = i)
      = (peersetGetPeer s i).toList.filter (fun p => !peersetCheck other p.id) := by
    rw [← filter_getPeers, List.filter_filter, List.filter_filter]
    simp [Bool.and_comm]
  have hdst : (fun p : Peer ID => decide ((TopologyMessage.neighbourhood p.id kind m).dst = i))
      = fun p => decide (p.id = i) := rfl
  rw [List.filter_map, Function.comp_def, hdst, hfilter, peersetCheck]
  cases hp : peersetGetPeer s i with
  | none => simp
  | some p =>
      obtain ⟨-, rfl⟩ := peersetGetPeer_eq_some.mp hp
      cases hc : peersetCheck other p.id <;> simp [hc]

/-- **What is signalled** when the neighbours of the reference copy have become those of `t`. -/
lemma topologySignalChange_eq (h : Placed t.heap t.neighbourhood t.swarmBucket)
    (hout : t.topoOut = true) {oldNeighs : S}
    (hold : ∀ p ∈ getPeers oldNeighs, p ∈ getPeers t.neighbourhood ∨ p ∈ getPeers t.swarmBucket) :
    ∃ sent, t.topologySignalChange oldNeighs = .ok sent
      ∧ ∀ i, sent.filter (·.dst = i) = owed oldNeighs t.neighbourhood t.myMetadata i := by
  have hadd := signal_eq h .add oldNeighs (fun p (hp : p ∈ getPeers t.neighbourhood) => Or.inl hp)
  have hremove := signal_eq h .remove t.neighbourhood hold
  refine ⟨_, by simp [topologySignalChange, hout, hadd, hremove]; rfl, fun i => ?_⟩
  rw [List.filter_append, filter_signals, filter_signals, owed]
  cases peersetCheck oldNeighs i <;> cases peersetCheck t.neighbourhood i <;> simp

/-! ## The update -/

lemma topologyUpdateRandom_placed (h : Placed t.heap t.neighbourhood t.swarmBucket)
    (discard add : ℕ → Fin (RAND_MAX + 1)) :
    ∃ neighbourhood swarmBucket,
      t.topologyUpdateRandom discard add = .ok { t with neighbourhood, swarmBucket }
      ∧ Placed t.heap neighbourhood swarmBucket
      ∧ ∀ p, p ∈ getPeers neighbourhood ∨ p ∈ getPeers swarmBucket
        ↔ p ∈ getPeers t.neighbourhood ∨ p ∈ getPeers t.swarmBucket := by
  obtain ⟨n₁, b₁, hmove₁, hplaced₁, hunion₁, -⟩ := topologyMovePeers_placed h
    ⌊(1 - t.topoMem) * peersetSize t.neighbourhood⌋ discard
  obtain ⟨b₂, n₂, hmove₂, hplaced₂, hunion₂, -⟩ := topologyMovePeers_placed hplaced₁.symm
    (max (t.neighbourhoodTargetSize - peersetSize n₁) 0) add
  refine ⟨n₂, b₂, by simp [topologyUpdateRandom, hmove₁, hmove₂], hplaced₂.symm, fun p => ?_⟩
  rw [or_comm, hunion₂, or_comm, hunion₁]

/-- **The exchange** keeps the invariant, tells every node what it is owed and empties the swarm
bucket. -/
theorem topologyExchange_inv (h : TopologyInv t) (u : UpdateInput ID) :
    ∃ t' sent, t.topologyExchange u = .ok (t', sent) ∧ TopologyInv t'
      ∧ (∀ i, sent.filter (·.dst = i) = owed t.neighbourhood t'.neighbourhood t.myMetadata i)
      ∧ getPeers t'.swarmBucket = [] := by
  obtain ⟨n, b, hrandom, hplaced, hunion⟩ := topologyUpdateRandom_placed h.placed u.discard u.add
  have hold : ∀ p ∈ getPeers (peersetCreateReferenceCopy t.neighbourhood),
      p ∈ getPeers n ∨ p ∈ getPeers b := fun p hp =>
    (hunion p).mpr (Or.inl (mem_peersetCreateReferenceCopy.mp hp))
  obtain ⟨sent, hsignal, hsent⟩ := topologySignalChange_eq
    (t := { t with neighbourhood := n, swarmBucket := b }) hplaced h.tells hold
  obtain ⟨heap, hfree, hclear⟩ := hplaced.clear
  let lockedNeighs := (getPeers b).foldl (fun s p => (popPeer s p.id).1) t.lockedNeighs
  refine ⟨{ t with heap, neighbourhood := n, swarmBucket := PeerSet.clear b, lockedNeighs }, sent,
    ?_, ⟨hclear, fun p hp => ?_, h.tells⟩, fun i => ?_, LawfulPeerSet.getPeers_clear b⟩
  · simp [topologyExchange, hrandom, hsignal, peersetDestroyReferenceCopy_eq, hfree, lockedNeighs]
  · -- a locked peer was a neighbour, and is not one of those forgotten
    obtain ⟨hp, hout⟩ := mem_foldl_popPeer.mp hp
    rcases (hunion p).mpr (Or.inl (h.locked p hp)) with hp | hp
    · exact hp
    · exact absurd rfl (hout p hp)
  · have hcheck : peersetCheck (peersetCreateReferenceCopy t.neighbourhood) i
        = peersetCheck t.neighbourhood i := by
      rw [Bool.eq_iff_iff, peersetCheck_iff, peersetCheck_iff]
      simp [mem_peersetCreateReferenceCopy]
    rw [hsent i, owed, owed, hcheck]

/-- Sampled peers are known afterwards. -/
lemma topologySamplePeers_inv (h : TopologyInv t) (now : ℤ) (sample : List (ID × Metadata)) :
    ∃ t', t.topologySamplePeers now sample = .ok t' ∧ TopologyInv t' := by
  induction sample generalizing t with
  | nil => exact ⟨t, rfl, h⟩
  | cons im sample ih =>
      obtain ⟨i, m⟩ := im
      -- the peer is there already, or is added
      have hknown : ∃ t₁ p, (if t.topologyGetPeer i = none then t.addToSwarm i now else t) = t₁
          ∧ TopologyInv t₁ ∧ t₁.topologyGetPeer i = some p := by
        split_ifs with hnew
        · obtain ⟨hinv, p, hp⟩ := addToSwarm_inv h hnew now
          exact ⟨_, p, rfl, hinv, hp⟩
        · obtain ⟨p, hp⟩ := Option.ne_none_iff_exists'.mp hnew
          exact ⟨t, p, rfl, h, hp⟩
      obtain ⟨t₁, p, ht₁, hinv, hp⟩ := hknown
      obtain ⟨heap, hset, hinv⟩ := peerSetMetadata_inv hinv (mem_of_topologyGetPeer hp).1 m
      obtain ⟨t', hsample, hinv'⟩ := ih hinv
      refine ⟨t', ?_, hinv'⟩
      rw [topologySamplePeers]
      simp [ht₁, hp, hset, hsample]

lemma dropUnactivesLoop_inv (h : TopologyInv t) (told : ℤ) (is : List ℕ) :
    ∃ t', t.dropUnactivesLoop told is = .ok t' ∧ TopologyInv t' := by
  induction is generalizing t with
  | nil => exact ⟨t, rfl, h⟩
  | cons i is ih =>
      rw [dropUnactivesLoop]
      split
      · exact ⟨t, rfl, h⟩
      · rename_i p hp
        obtain ⟨d, hread⟩ := h.placed.read (Or.inl (List.mem_of_getElem? hp))
        cases hd : inactive d told with
        | true =>
            obtain ⟨t₁, hremove, hinv, -⟩ := topologyRemovePeer_inv h p.id
            simpa [hread, hd, hremove] using ih hinv
        | false => simpa [hread, hd] using ih h

lemma topologyRefresh_inv (h : TopologyInv t) (u : UpdateInput ID) :
    ∃ t', t.topologyRefresh u = .ok t' ∧ TopologyInv t' := by
  have hmeta : TopologyInv (t.updateMetadata u.cbSize) := ⟨h.placed, h.locked, h.tells⟩
  obtain ⟨t₁, hsample, hinv⟩ := topologySamplePeers_inv hmeta u.tSample u.sample
  simp only [topologyRefresh, hsample, Eval.ok_bind]
  split_ifs
  · exact dropUnactivesLoop_inv hinv _ _
  · exact ⟨t₁, rfl, hinv⟩

/-- **One update**, whatever is sampled and drawn. -/
theorem topologyUpdate_inv (h : TopologyInv t) (u : UpdateInput ID) :
    ∃ t₁ t' sent, t.topologyRefresh u = .ok t₁ ∧ t.topologyUpdate u = .ok (t', sent)
      ∧ TopologyInv t'
      ∧ (∀ i, sent.filter (·.dst = i) = owed t₁.neighbourhood t'.neighbourhood t₁.myMetadata i)
      ∧ getPeers t'.swarmBucket = [] := by
  obtain ⟨t₁, hrefresh, hinv⟩ := topologyRefresh_inv h u
  obtain ⟨t', sent, hexchange, hrest⟩ := topologyExchange_inv hinv u
  exact ⟨t₁, t', sent, hrefresh, by simp [topologyUpdate, hrefresh, hexchange], hrest⟩

end Topology

end PeerStreamer
