import PeerStreamer.Streaming.TopologyUpdate

/-!
# The random update

`topology_update_random` puts some neighbours, drawn at random, into the swarm bucket and then fills
the neighbourhood up from there.  Whatever is drawn, the peers of the two sets together stay the
same, and how many of them are neighbours is decided by the sizes alone (`random_update`).

Nothing is assumed of the two sets but that no id is in both.
-/

namespace PeerStreamer

variable {ID S : Type} [DecidableEq ID] [PeerSet ID S] [LawfulPeerSet ID S]

/-! ## Counting -/

section Counting

variable {s₁ s₂ s₁' s₂' : S}

/-- The peers of two sets that are apart are different. -/
lemma Apart.nodup (h : Apart s₁ s₂) : (getPeers s₁ ++ getPeers s₂).Nodup := by
  refine List.nodup_append.mpr ⟨nodup_getPeers s₁, nodup_getPeers s₂, fun p hp q hq he => ?_⟩
  exact h p hp q hq (congrArg Peer.id he)

/-- Sets with the same union have the same peers. -/
lemma Apart.perm (h : Apart s₁ s₂) (h' : Apart s₁' s₂')
    (hunion : ∀ p, p ∈ getPeers s₁' ∨ p ∈ getPeers s₂' ↔ p ∈ getPeers s₁ ∨ p ∈ getPeers s₂) :
    (getPeers s₁' ++ getPeers s₂').Perm (getPeers s₁ ++ getPeers s₂) :=
  (List.perm_ext_iff_of_nodup h'.nodup h.nodup).mpr fun p => by
    rw [List.mem_append, List.mem_append, hunion]

/-- **A move** conserves peers, and moves as many as it is told to or as there are. -/
theorem topologyMovePeers_perm (h : Apart s₁ s₂) (num : ℤ) (rand : ℕ → Fin (RAND_MAX + 1)) :
    ∃ s₁' s₂', topologyMovePeers s₁ s₂ num rand = .ok (s₁', s₂') ∧ Apart s₁' s₂'
      ∧ (getPeers s₁' ++ getPeers s₂').Perm (getPeers s₁ ++ getPeers s₂)
      ∧ peersetSize s₂' = peersetSize s₂ + min num.toNat (peersetSize s₁) := by
  obtain ⟨s₁', s₂', hmove, hapart, hunion, hmoved⟩ := topologyMovePeers_apart h num rand
  refine ⟨s₁', s₂', hmove, hapart, h.perm hapart hunion, ?_⟩
  have hshuffle := arrayShuffle_perm rand (getPeers s₁)
  have hnew : (getPeers s₂ ++ (arrayShuffle rand (getPeers s₁)).take num.toNat).Nodup := by
    refine List.nodup_append.mpr ⟨nodup_getPeers s₂,
      (hshuffle.nodup_iff.mpr (nodup_getPeers s₁)).sublist (List.take_sublist _ _),
      fun p hp q hq he => ?_⟩
    have hq₁ := hshuffle.mem_iff.mp (List.mem_of_mem_take hq)
    exact h q hq₁ p hp (congrArg Peer.id he.symm)
  have hperm : (getPeers s₂').Perm
      (getPeers s₂ ++ (arrayShuffle rand (getPeers s₁)).take num.toNat) :=
    (List.perm_ext_iff_of_nodup (nodup_getPeers s₂') hnew).mpr fun p => by
      rw [hmoved, List.mem_append]
  rw [peersetSize, hperm.length_eq, List.length_append, List.length_take, hshuffle.length_eq]
  rfl

end Counting

namespace Topology

/-- **A random update conserves peers.**  For every neighbourhood and swarm bucket that are apart,
every target size, every number `d` of neighbours to discard and all draws: the update succeeds, the
two sets have the same peers together as before and are still apart, and the size of the
neighbourhood is what the sizes before determine. -/
theorem random_update {t : Topology S} (h : Apart t.neighbourhood t.swarmBucket) {d : ℕ}
    (hd : ⌊(1 - t.topoMem) * peersetSize t.neighbourhood⌋ = d)
    (hle : d ≤ peersetSize t.neighbourhood) (discard add : ℕ → Fin (RAND_MAX + 1)) :
    ∃ neighbourhood swarmBucket,
      t.topologyUpdateRandom discard add = .ok { t with neighbourhood, swarmBucket }
      ∧ Apart neighbourhood swarmBucket
      ∧ (getPeers neighbourhood ++ getPeers swarmBucket).Perm
        (getPeers t.neighbourhood ++ getPeers t.swarmBucket)
      ∧ (peersetSize neighbourhood : ℤ) = max (peersetSize t.neighbourhood - d : ℤ)
        (min t.neighbourhoodTargetSize
          (peersetSize t.neighbourhood + peersetSize t.swarmBucket : ℤ)) := by
  obtain ⟨n₁, b₁, hmove₁, hapart₁, hperm₁, hsize₁⟩ := topologyMovePeers_perm h d discard
  have hswap : Apart b₁ n₁ := fun p hp q hq => (hapart₁ q hq p hp).symm
  obtain ⟨b₂, n₂, hmove₂, hapart₂, hperm₂, hsize₂⟩ := topologyMovePeers_perm hswap
    (max (t.neighbourhoodTargetSize - peersetSize n₁) 0) add
  refine ⟨n₂, b₂, ?_, fun p hp q hq => (hapart₂ q hq p hp).symm, ?_, ?_⟩
  · simp [topologyUpdateRandom, hd, hmove₁, hmove₂]
  · exact (List.perm_append_comm.trans hperm₂).trans (List.perm_append_comm.trans hperm₁)
  · have hlen := hperm₁.length_eq
    simp only [List.length_append] at hlen
    simp only [peersetSize] at hsize₁ hsize₂ hle ⊢
    omega

/-- Four neighbours of three wanted, and one peer in the swarm bucket. -/
def fourNeighbours : Topology (PeerList ℕ) :=
  { (topologyInit 3 10 50 : Topology (PeerList ℕ)) with
    neighbourhood := ⟨[⟨0, 10⟩, ⟨1, 11⟩, ⟨2, 12⟩, ⟨3, 13⟩], by decide⟩
    swarmBucket := ⟨[⟨4, 14⟩], by decide⟩
    topoMem := 1 / 2 }

/-- Two of four neighbours are discarded, and one of the three peers then in the swarm bucket is
taken in. -/
theorem random_update_halved :
    ∃ neighbourhood swarmBucket : PeerList ℕ,
      fourNeighbours.topologyUpdateRandom (fun _ => 0) (fun _ => 5)
        = .ok { fourNeighbours with neighbourhood, swarmBucket }
      ∧ Apart neighbourhood swarmBucket
      ∧ (getPeers neighbourhood ++ getPeers swarmBucket).Perm
        (getPeers fourNeighbours.neighbourhood ++ getPeers fourNeighbours.swarmBucket)
      ∧ (peersetSize neighbourhood : ℤ)
        = max (peersetSize fourNeighbours.neighbourhood - (2 : ℕ) : ℤ)
        (min fourNeighbours.neighbourhoodTargetSize
          (peersetSize fourNeighbours.neighbourhood
            + peersetSize fourNeighbours.swarmBucket : ℤ)) := by
  refine random_update (t := fourNeighbours) ?_ ?_ (by decide) _ _
  · simp [Apart, fourNeighbours, getPeers]
  · norm_num [fourNeighbours, peersetSize, getPeers]

end Topology

end PeerStreamer
