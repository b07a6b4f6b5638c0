import PeerStreamer.Streaming.NeighbourMetadata

/-!
# Dropping inactive neighbours

`neighbourhood_drop_unactives` walks along the array of the neighbours by index and removes from
that array while it does.  A removal moves the later peers down by one place, and the index goes on,
so the peer after one that is removed is not looked at (`survivors`): the inactive neighbours are
all gone afterwards if and only if no two of them stood next to each other
(`inactive_dropped_iff`).

What is relied on of the peer set, besides its laws, is that its peers are in one array and that a
removal keeps their order (`ContiguousPeerSet`).
-/

namespace PeerStreamer

/-! ## The array -/

/-- A removal takes the peer out of the array, and the later ones move down. -/
class ContiguousPeerSet (ID : outParam Type) (S : Type) [DecidableEq ID] [PeerSet ID S] : Prop
    extends LawfulPeerSet ID S where
  getPeers_popPeer : ∀ (s : S) (i : ID), getPeers (popPeer s i).1 = (getPeers s).filter (·.id ≠ i)

instance peerListContiguous {ID : Type} [DecidableEq ID] : ContiguousPeerSet ID (PeerList ID) where
  getPeers_popPeer _ _ := rfl

/-! ## The loop on a list -/

section Survivors

variable {α : Type} (old : α → Bool)

/-- What is left of a list by a loop that goes on to the next place after a removal, too. -/
def survivors : List α → List α
  | [] => []
  | [p] => if old p then [] else [p]
  | p :: q :: ps => if old p then q :: survivors ps else p :: survivors (q :: ps)

variable {old} {l : List α} {x : α}

lemma survivors_cons_of_young (hx : old x = false) (l : List α) :
    survivors old (x :: l) = x :: survivors old l := by
  cases l <;> simp [survivors, hx]

lemma survivors_sublist (l : List α) : (survivors old l).Sublist l := by
  fun_induction survivors old l with
  | case1 => exact List.Sublist.slnil
  | case2 p _ => exact List.nil_sublist _
  | case3 p _ => exact List.Sublist.refl _
  | case4 p q ps _ ih => exact (ih.cons_cons q).cons p
  | case5 p q ps _ ih => exact ih.cons_cons p

/-- No one is removed without being old. -/
lemma mem_survivors_of_not_old (hx : x ∈ l) (hold : old x = false) : x ∈ survivors old l := by
  fun_induction survivors old l with
  | case1 => exact hx
  | case2 p hp =>
      obtain rfl := List.mem_singleton.mp hx
      rw [hold] at hp
      cases hp
  | case3 p _ => exact hx
  | case4 p q ps hp ih =>
      rcases List.mem_cons.mp hx with rfl | hx
      · rw [hold] at hp
        cases hp
      · exact List.mem_cons.mpr ((List.mem_cons.mp hx).imp_right ih)
  | case5 p q ps _ ih => exact List.mem_cons.mpr ((List.mem_cons.mp hx).imp_right ih)

/-- **All the old ones are gone** exactly if no two of them stood next to each other. -/
theorem survivors_young_iff :
    (∀ x ∈ survivors old l, old x = false)
      ↔ l.IsChain fun x y => ¬(old x = true ∧ old y = true) := by
  fun_induction survivors old l with
  | case1 => simp
  | case2 p _ => simp
  | case3 p hp => simpa using hp
  | case4 p q ps hp ih =>
      -- the next one stays, whatever it is
      rw [List.forall_mem_cons, ih, List.isChain_cons_cons]
      simp only [hp, true_and, Bool.not_eq_true]
      refine and_congr_right fun hq => ?_
      cases ps with
      | nil => simp
      | cons r ps => simp [List.isChain_cons_cons, hq]
  | case5 p q ps hp ih =>
      rw [List.forall_mem_cons, ih, List.isChain_cons_cons]
      simp [hp]

end Survivors

/-! ## The loop in the topology -/

/-- When a peer was last heard from: its last buffer map, or its creation if it never sent one. -/
def PeerData.lastHeard (d : PeerData) : ℤ :=
  if d.bmapTimestamp = 0 then d.creationTimestamp else d.bmapTimestamp

namespace Topology

variable {ID S : Type}

/-- The peer has an object, and was last heard from before `told`. -/
def Stale (t : Topology S) (told : ℤ) (p : Peer ID) : Prop :=
  ∃ d, t.heap.data p.ref = some d ∧ d.lastHeard < told

lemma inactive_eq (d : PeerData) (told : ℤ) : inactive d told = decide (d.lastHeard < told) := by
  rw [inactive, PeerData.lastHeard]
  by_cases h : d.bmapTimestamp = 0 <;> simp [h]

variable [PeerSet ID S]

/-- Behind the end of the array the loop stops. -/
lemma dropUnactivesLoop_end {t : Topology S} {told : ℤ} {i : ℕ}
    (hi : (getPeers t.neighbourhood).length ≤ i) (k : ℕ) :
    t.dropUnactivesLoop told (List.range' i k) = .ok t := by
  cases k with
  | zero => rfl
  | succ k =>
      rw [List.range'_succ, dropUnactivesLoop, List.getElem?_eq_none hi]
      rfl

variable [DecidableEq ID]

/-- The call succeeds; the stale neighbours, as of `tnow` minus the timeout, are gone, and the
others are still there. -/
def DropsStale (t : Topology S) (tnow bmapTimeout : ℤ) : Prop :=
  ∃ t', t.neighbourhoodDropUnactives tnow bmapTimeout = .ok t'
    ∧ ∀ p, p ∈ getPeers t'.neighbourhood
      ↔ p ∈ getPeers t.neighbourhood ∧ ¬Stale t (tnow - bmapTimeout) p

section Loop

variable [LawfulPeerSet ID S] {t t' : Topology S} {i : ID}

/-- The objects of the neighbours that stay are left alone. -/
lemma topologyRemovePeer_data (h : Placed t.heap t.neighbourhood t.swarmBucket)
    (hremove : t.topologyRemovePeer i = .ok t') {p : Peer ID}
    (hp : p ∈ getPeers t'.neighbourhood) : t'.heap.data p.ref = t.heap.data p.ref := by
  simp only [topologyRemovePeer, Eval.bind_eq_ok, Eval.pure_eq_ok, Except.ok.injEq] at hremove
  obtain ⟨⟨heap₁, n⟩, h₁, ⟨heap₂, b⟩, h₂, rfl⟩ := hremove
  obtain ⟨rfl, hdata₁⟩ := peersetRemovePeer_data h₁
  obtain ⟨rfl, hdata₂⟩ := peersetRemovePeer_data h₂
  obtain ⟨hmem, hid⟩ := (LawfulPeerSet.mem_popPeer _ _ _).mp hp
  have hother : ∀ q, q ∈ getPeers t.neighbourhood ∨ q ∈ getPeers t.swarmBucket → q.id = i →
      p.ref ≠ q.ref := by
    rintro q hq rfl href
    exact hid (congrArg Peer.id (h.owner p q (Or.inl hmem) hq href))
  exact (hdata₂ _ fun q hq => hother q (Or.inr hq)).trans
    (hdata₁ _ fun q hq => hother q (Or.inl hq))

end Loop

/-- Filtering out an id that is there once. -/
lemma filter_id_ne_middle {p : Peer ID} {ps qs : List (Peer ID)}
    (h : ((ps ++ p :: qs).map Peer.id).Nodup) :
    (ps ++ p :: qs).filter (·.id ≠ p.id) = ps ++ qs := by
  rw [List.map_append, List.map_cons] at h
  have hnot := (List.nodup_cons.mp (List.nodup_middle.mp h)).1
  rw [← List.map_append] at hnot
  rw [List.filter_append, List.filter_cons_of_neg (by simp), ← List.filter_append,
    List.filter_eq_self]
  intro q hq
  have hne : q.id ≠ p.id := fun he => hnot (he ▸ List.mem_map_of_mem hq)
  simpa using hne

section Contiguous

variable [ContiguousPeerSet ID S] {t : Topology S} {told : ℤ} {kept rest : List (Peer ID)}

/-- **A removal** closes the gap, and leaves the objects of the others. -/
lemma topologyRemovePeer_middle {p : Peer ID} (h : Placed t.heap t.neighbourhood t.swarmBucket)
    (hlist : getPeers t.neighbourhood = kept ++ p :: rest) :
    ∃ t', t.topologyRemovePeer p.id = .ok t' ∧ Placed t'.heap t'.neighbourhood t'.swarmBucket
      ∧ getPeers t'.neighbourhood = kept ++ rest
      ∧ ∀ r ∈ rest, t'.heap.data r.ref = t.heap.data r.ref := by
  obtain ⟨heap, hremove, hplaced⟩ := topologyRemovePeer_placed h p.id
  have hkeyed := LawfulPeerSet.keyed t.neighbourhood
  rw [hlist] at hkeyed
  have hgap : getPeers (popPeer t.neighbourhood p.id).1 = kept ++ rest := by
    rw [ContiguousPeerSet.getPeers_popPeer, hlist, filter_id_ne_middle hkeyed]
  refine ⟨_, hremove, hplaced, hgap, fun r hr => topologyRemovePeer_data h hremove ?_⟩
  exact hgap ▸ List.mem_append_right kept hr

/-- **The loop** leaves the survivors, when it has come to `rest`. -/
theorem dropUnactivesLoop_survivors {data : Peer ID → PeerData} {k : ℕ}
    (h : Placed t.heap t.neighbourhood t.swarmBucket)
    (hlist : getPeers t.neighbourhood = kept ++ rest) (hk : rest.length ≤ k)
    (hdata : ∀ p ∈ rest, t.heap.data p.ref = some (data p)) :
    ∃ t', t.dropUnactivesLoop told (List.range' kept.length k) = .ok t'
      ∧ getPeers t'.neighbourhood = kept ++ survivors (fun p => inactive (data p) told) rest := by
  induction k generalizing t kept rest with
  | zero =>
      obtain rfl := List.length_eq_zero_iff.mp (Nat.le_zero.mp hk)
      exact ⟨t, rfl, hlist⟩
  | succ k ih =>
      cases rest with
      | nil =>
          rw [List.append_nil] at hlist
          exact ⟨t, dropUnactivesLoop_end (by rw [hlist]) _,
            by rw [hlist, survivors, List.append_nil]⟩
      | cons p ps =>
          have hread : t.heap.read p.ref = .ok (data p) := by
            rw [PeerHeap.read, hdata p List.mem_cons_self]
          have hthere : (getPeers t.neighbourhood)[kept.length]? = some p := by simp [hlist]
          rw [List.range'_succ, dropUnactivesLoop, hthere]
          simp only [hread, Eval.ok_bind]
          by_cases hold : inactive (data p) told = true
          · obtain ⟨t₁, hremove, hplaced, hlist₁, hdata₁⟩ := topologyRemovePeer_middle h hlist
            simp only [if_pos hold, hremove, Eval.ok_bind]
            cases ps with
            | nil =>
                exact ⟨t₁, dropUnactivesLoop_end (by simp [hlist₁]) _,
                  by simp [hlist₁, survivors, hold]⟩
            | cons q ps =>
                have hps : ∀ r ∈ ps, t₁.heap.data r.ref = some (data r) := by
                  intro r hr
                  rw [hdata₁ r (List.mem_cons_of_mem q hr)]
                  exact hdata r (by simp [hr])
                have hlen : ps.length ≤ k := by
                  simp only [List.length_cons] at hk
                  omega
                obtain ⟨t', hloop, ht'⟩ := ih hplaced (hlist₁.trans (List.append_cons kept q ps))
                  hlen hps
                rw [List.length_append, List.length_singleton] at hloop
                refine ⟨t', hloop, ?_⟩
                rw [ht', survivors, if_pos hold, List.append_assoc]
                rfl
          · simp only [if_neg hold, Eval.pure_eq_ok, Eval.ok_bind]
            obtain ⟨t', hloop, ht'⟩ := ih h (hlist.trans (List.append_cons kept p ps))
              (by simpa using hk) fun q hq => hdata q (List.mem_cons_of_mem p hq)
            rw [List.length_append, List.length_singleton] at hloop
            refine ⟨t', hloop, ?_⟩
            rw [ht', survivors_cons_of_young (by simpa using hold), List.append_assoc]
            rfl

/-- **Dropping inactive neighbours.**  For every topology whose peers have their objects, all
timestamps and every timeout: exactly the stale neighbours are gone if and only if no two of them
stand next to each other in the array. -/
theorem inactive_dropped_iff (h : Placed t.heap t.neighbourhood t.swarmBucket)
    (tnow bmapTimeout : ℤ) :
    DropsStale t tnow bmapTimeout
      ↔ (getPeers t.neighbourhood).IsChain fun p q =>
        ¬(Stale t (tnow - bmapTimeout) p ∧ Stale t (tnow - bmapTimeout) q) := by
  -- the data of the neighbours, which the loop reads
  obtain ⟨data, hdata⟩ : ∃ data : Peer ID → PeerData, ∀ p ∈ getPeers t.neighbourhood,
      t.heap.data p.ref = some (data p) := by
    refine ⟨fun p => (t.heap.data p.ref).getD ⟨0, 0, none⟩, fun p hp => ?_⟩
    obtain ⟨d, hd⟩ := Option.ne_none_iff_exists'.mp (h.live p (Or.inl hp))
    simp [hd]
  have hstale : ∀ p ∈ getPeers t.neighbourhood,
      (Stale t (tnow - bmapTimeout) p ↔ inactive (data p) (tnow - bmapTimeout) = true) := by
    intro p hp
    rw [inactive_eq, decide_eq_true_iff, Stale, hdata p hp]
    simp
  obtain ⟨t', hloop, ht'⟩ : ∃ t', t.neighbourhoodDropUnactives tnow bmapTimeout = .ok t'
      ∧ getPeers t'.neighbourhood = survivors (fun p => inactive (data p) (tnow - bmapTimeout))
        (getPeers t.neighbourhood) := by
    rw [neighbourhoodDropUnactives, List.range_eq_range']
    exact dropUnactivesLoop_survivors h (List.nil_append _).symm le_rfl hdata
  have hchain : (getPeers t.neighbourhood).IsChain (fun p q =>
      ¬(Stale t (tnow - bmapTimeout) p ∧ Stale t (tnow - bmapTimeout) q))
      ↔ ∀ p ∈ survivors (fun p => inactive (data p) (tnow - bmapTimeout))
          (getPeers t.neighbourhood),
        inactive (data p) (tnow - bmapTimeout) = false := by
    rw [survivors_young_iff]
    exact List.IsChain.iff_of_mem_imp fun p q hp hq => by rw [hstale p hp, hstale q hq]
  rw [hchain]
  constructor
  · rintro ⟨t'', hdrop, hmem⟩ p hp
    obtain rfl := Except.ok.inj (hloop.symm.trans hdrop)
    obtain ⟨hp', hyoung⟩ := (hmem p).mp (ht' ▸ hp)
    rw [hstale p hp'] at hyoung
    simpa using hyoung
  · refine fun hall => ⟨t', hloop, fun p => ?_⟩
    rw [ht']
    constructor
    · intro hp
      have hp' := (survivors_sublist _).subset hp
      refine ⟨hp', ?_⟩
      rw [hstale p hp', hall p hp]
      exact Bool.false_ne_true
    · rintro ⟨hp, hyoung⟩
      rw [hstale p hp] at hyoung
      exact mem_survivors_of_not_old hp (by simpa using hyoung)

end Contiguous

/-- A node that two others have introduced themselves to, the second of which has been heard from
since. -/
def heardFromOne : Topology (PeerList ℕ) :=
  let t : Topology (PeerList ℕ) := topologyInit 30 10 50
  { t with
    heap := ⟨Function.update ((t.heap.alloc 0).alloc 0).data 1 (some ⟨0, 15000000, none⟩), 2⟩
    neighbourhood := pushPeer (pushPeer t.neighbourhood ⟨0, 7⟩) ⟨1, 8⟩
    lockedNeighs := pushPeer (pushPeer t.lockedNeighs ⟨0, 7⟩) ⟨1, 8⟩ }

lemma heardFromOne_inv : TopologyInv heardFromOne := by
  have hrun : exec topologyStep (topologyInit 30 10 50)
      [.message 7 0 none 0, .message 8 0 none 0, .heard 8 15000000]
      = .ok (heardFromOne, [[.bufferMap 7], [.bufferMap 8], []]) := rfl
  exact (topologyInv_of_run hrun).1

/-- One of two neighbours is inactive. -/
theorem inactive_dropped_iff_one :
    DropsStale heardFromOne 20000000 10000000
      ↔ (getPeers heardFromOne.neighbourhood).IsChain fun p q =>
        ¬(Stale heardFromOne (20000000 - 10000000) p
          ∧ Stale heardFromOne (20000000 - 10000000) q) :=
  inactive_dropped_iff heardFromOne_inv.placed 20000000 10000000

/-- Two nodes introduce themselves and are not heard from again; the second stays. -/
theorem not_inactive_dropped :
    ¬∀ (ops : List (TopologyOp ℕ)) (t : Topology (PeerList ℕ))
      (outs : List (List (TopologyMessage ℕ))),
      exec topologyStep (topologyInit 30 10 50) ops = .ok (t, outs) →
      ∀ tnow, DropsStale t tnow t.toutBmap := by
  intro h
  obtain ⟨t', hdrop, hmem⟩ := h [.message 7 0 none 0, .message 8 0 none 0] _ _ rfl 20000000
  have hstays : (⟨1, 8⟩ : Peer ℕ) ∈ getPeers t'.neighbourhood := by
    cases hdrop
    decide
  exact ((hmem _).mp hstays).2 ⟨⟨0, 0, none⟩, rfl, by decide⟩

end Topology

end PeerStreamer
