import PeerStreamer.Streaming.TopologyRuns

/-!
# The end of a topology

`topology_quit_overlay` and `topology_destroy`.

No operation loses a peer object: besides those of the peers in the neighbourhood and in the swarm
bucket there are none (`Topology.NoneLost`).  So at the end every peer that is known is told once,
every object is freed once, and none is left (`topology_destroyed`).
-/

namespace PeerStreamer

variable {ID S : Type} [PeerSet ID S]

/-! ## The functions -/

namespace Topology

/-- `topology_quit_overlay` -/
def topologyQuitOverlay (t : Topology S) : Eval (List (TopologyMessage ID)) := do
  let neighbours ← (getPeers t.neighbourhood).mapM (t.neighbourhoodSendMsg · .quit)
  let others ← (getPeers t.swarmBucket).mapM (t.neighbourhoodSendMsg · .quit)
  return neighbours ++ others

/-- `topology_destroy`: the objects that are left, and the messages that are sent. -/
def topologyDestroy (t : Topology S) : Eval (PeerHeap × List (TopologyMessage ID)) := do
  let sent ← t.topologyQuitOverlay
  -- the locked peers are popped by the ids that are in their objects
  let _ ← (getPeers t.lockedNeighs).mapM fun p => t.heap.read p.ref
  let heap ← peersetDestroyReferenceCopy t.heap t.lockedNeighs
  let heap ← peersetFreeAll heap (getPeers t.neighbourhood)
  let heap ← peersetFreeAll heap (getPeers t.swarmBucket)
  return (heap, sent)

end Topology

/-! ## Objects that belong to somebody -/

/-- Every object belongs to a peer in one of the two sets. -/
def Held (h : PeerHeap) (s₁ s₂ : S) : Prop :=
  ∀ r, h.data r ≠ none → ∃ p, (p ∈ getPeers s₁ ∨ p ∈ getPeers s₂) ∧ p.ref = r

section Held

variable {h h' : PeerHeap} {s₁ s₂ s₁' s₂' : S} {p : Peer ID} {ps : List (Peer ID)} {i : ID} {r : ℕ}

lemma Held.symm (hh : Held h s₁ s₂) : Held h s₂ s₁ := by
  intro r hr
  obtain ⟨p, hp, he⟩ := hh r hr
  exact ⟨p, hp.symm, he⟩

/-- No peer is dropped. -/
lemma Held.mono (hh : Held h s₁ s₂)
    (hsub : ∀ p, p ∈ getPeers s₁ ∨ p ∈ getPeers s₂ → p ∈ getPeers s₁' ∨ p ∈ getPeers s₂') :
    Held h s₁' s₂' := by
  intro r hr
  obtain ⟨p, hp, he⟩ := hh r hr
  exact ⟨p, hsub p hp, he⟩

/-- An object of one of the sets is changed. -/
lemma Held.write {d : PeerData} (hh : Held h s₁ s₂) (hmem : p ∈ getPeers s₁ ∨ p ∈ getPeers s₂)
    (hw : h.write p.ref d = .ok h') : Held h' s₁ s₂ := by
  intro r hr
  rw [PeerHeap.data_of_write hw] at hr
  by_cases hrp : r = p.ref
  · exact ⟨p, hmem, hrp.symm⟩
  · rw [Function.update_of_ne hrp] at hr
    exact hh r hr

/-- What is there after some peers have been freed. -/
lemma live_of_peersetFreeAll (hf : peersetFreeAll h ps = .ok h') (hr : h'.data r ≠ none) :
    h.data r ≠ none ∧ ∀ p ∈ ps, p.ref ≠ r := by
  induction ps generalizing h with
  | nil =>
      cases hf
      exact ⟨hr, by simp⟩
  | cons p ps ih =>
      simp only [peersetFreeAll, Eval.bind_eq_ok] at hf
      obtain ⟨h₁, hfree, hrest⟩ := hf
      obtain ⟨hlive, hother⟩ := ih hrest
      obtain ⟨hne, hlive⟩ := PeerHeap.live_of_free hfree hlive
      refine ⟨hlive, fun q hq => ?_⟩
      rcases List.mem_cons.mp hq with rfl | hq
      · exact hne.symm
      · exact hother q hq

/-- The second set is freed and cleared. -/
lemma Held.clear (hh : Held h s₁ s₂) (hf : peersetFreeAll h (getPeers s₂) = .ok h') :
    Held h' s₁ (PeerSet.clear s₂) := by
  intro r hr
  obtain ⟨hlive, hother⟩ := live_of_peersetFreeAll hf hr
  obtain ⟨p, hp | hp, he⟩ := hh r hlive
  · exact ⟨p, Or.inl hp, he⟩
  · exact absurd he (hother p hp)

variable [DecidableEq ID] [LawfulPeerSet ID S]

/-- A new peer is added to the first set. -/
lemma Held.add (hh : Held h s₁ s₂) (hnew : ∀ p ∈ getPeers s₁, p.id ≠ i) (now : ℤ) :
    Held (h.alloc now) (pushPeer s₁ ⟨h.next, i⟩) s₂ := by
  have hmem : ∀ p, p ∈ getPeers (pushPeer s₁ ⟨h.next, i⟩) ↔ p ∈ getPeers s₁ ∨ p = ⟨h.next, i⟩ :=
    fun p => mem_pushPeer_of_new hnew
  intro r hr
  by_cases hrn : r = h.next
  · exact ⟨⟨h.next, i⟩, Or.inl ((hmem _).mpr (Or.inr rfl)), hrn.symm⟩
  · simp only [PeerHeap.alloc, Function.update_of_ne hrn] at hr
    obtain ⟨p, hp, he⟩ := hh r hr
    exact ⟨p, hp.imp_left fun hp => (hmem p).mpr (Or.inl hp), he⟩

/-- A pop that finds nothing. -/
lemma Held.popNone (hh : Held h s₁ s₂) (hnone : ∀ p ∈ getPeers s₁, p.id ≠ i) :
    Held h (popPeer s₁ i).1 s₂ :=
  hh.mono fun p hp => hp.imp_left fun hp => (LawfulPeerSet.mem_popPeer _ _ _).mpr ⟨hp, hnone p hp⟩

/-- The peer with an id is taken out of the first set and freed. -/
lemma Held.remove (hh : Held h s₁ s₂) (hr : peersetRemovePeer h s₁ i = .ok (h', s₁')) :
    Held h' s₁' s₂ := by
  rw [peersetRemovePeer, popPeer_eq] at hr
  cases hget : peersetGetPeer s₁ i with
  | none =>
      simp only [hget] at hr
      cases hr
      exact hh.popNone (peersetGetPeer_eq_none.mp hget)
  | some p =>
      obtain ⟨hp, rfl⟩ := peersetGetPeer_eq_some.mp hget
      simp only [hget, Eval.bind_eq_ok, Eval.pure_eq_ok, Except.ok.injEq, Prod.mk.injEq] at hr
      obtain ⟨h₁, hfree, rfl, rfl⟩ := hr
      intro r hlive
      obtain ⟨hne, hlive⟩ := PeerHeap.live_of_free hfree hlive
      obtain ⟨q, hq, rfl⟩ := hh r hlive
      refine ⟨q, hq.imp_left fun hq => (LawfulPeerSet.mem_popPeer _ _ _).mpr ⟨hq, fun hid => ?_⟩,
        rfl⟩
      exact hne (congrArg Peer.ref (eq_of_id_eq hq hp hid))

end Held

/-! ## What the operations keep -/

namespace Topology

/-- No object has been lost: each belongs to a peer that is known. -/
abbrev NoneLost (t : Topology S) : Prop := Held t.heap t.neighbourhood t.swarmBucket

section Operations

variable {t t' : Topology S} {p : Peer ID} {i source : ID} {now told : ℤ}
  {sent : List (TopologyMessage ID)}

lemma peerSetMetadata_noneLost {m : Metadata} (h : t.NoneLost)
    (hp : p ∈ getPeers t.neighbourhood ∨ p ∈ getPeers t.swarmBucket)
    (hset : t.peerSetMetadata p m = .ok t') : t'.NoneLost := by
  simp only [peerSetMetadata, Eval.bind_eq_ok, Eval.pure_eq_ok, Except.ok.injEq] at hset
  obtain ⟨d, -, heap, hwrite, rfl⟩ := hset
  exact h.write hp hwrite

lemma peerSetBmapTimestamp_noneLost (h : t.NoneLost)
    (hp : p ∈ getPeers t.neighbourhood ∨ p ∈ getPeers t.swarmBucket)
    (hstamp : t.peerSetBmapTimestamp p now = .ok t') : t'.NoneLost := by
  simp only [peerSetBmapTimestamp, Eval.bind_eq_ok, Eval.pure_eq_ok, Except.ok.injEq] at hstamp
  obtain ⟨d, -, heap, hwrite, rfl⟩ := hstamp
  exact h.write hp hwrite

variable [DecidableEq ID] [LawfulPeerSet ID S]

lemma topologyRemovePeer_noneLost (h : t.NoneLost) (hremove : t.topologyRemovePeer i = .ok t') :
    t'.NoneLost := by
  simp only [topologyRemovePeer, Eval.bind_eq_ok, Eval.pure_eq_ok, Except.ok.injEq] at hremove
  obtain ⟨⟨heap₁, n⟩, hn, ⟨heap₂, b⟩, hb, rfl⟩ := hremove
  exact ((h.remove hn).symm.remove hb).symm

lemma addToSwarm_noneLost (h : t.NoneLost) (hnew : t.topologyGetPeer i = none) (now : ℤ) :
    (t.addToSwarm i now).NoneLost := by
  rw [addToSwarm_eq hnew]
  exact (h.symm.add (topologyGetPeer_eq_none.mp hnew).2 now).symm

lemma topologyNodeInsert_noneLost (h : t.NoneLost) (i : ID) (now : ℤ) :
    (t.topologyNodeInsert i now).NoneLost := by
  rw [topologyNodeInsert]
  split_ifs with hnew
  · exact addToSwarm_noneLost h hnew now
  · exact h

/-- A new neighbour comes from the swarm bucket, or has been one before, or gets a new object. -/
lemma neighbourhoodAddPeer_noneLost {msg : TopologyMessage ID} (hinv : TopologyInv t)
    (h : t.NoneLost) (hadd : t.neighbourhoodAddPeer i now = .ok (t', p, msg)) : t'.NoneLost := by
  rw [neighbourhoodAddPeer, popPeer_eq] at hadd
  cases hget : peersetGetPeer t.swarmBucket i with
  | some q =>
      obtain ⟨hq, rfl⟩ := peersetGetPeer_eq_some.mp hget
      simp only [hget] at hadd
      cases hadd
      obtain ⟨-, hunion, -⟩ := hinv.placed.symm.move hq
      exact (h.symm.mono fun r => (hunion r).mpr).symm
  | none =>
      have hpop : Held t.heap t.neighbourhood (popPeer t.swarmBucket i).1 :=
        (h.symm.popNone (peersetGetPeer_eq_none.mp hget)).symm
      simp only [hget, peersetAddPeer] at hadd
      split_ifs at hadd with hcheck
      · split at hadd
        · cases hadd
        · cases hadd
          exact hpop
      · have hnew : ∀ q ∈ getPeers t.neighbourhood, q.id ≠ i := by
          refine peersetGetPeer_eq_none.mp ?_
          simpa [peersetCheck] using hcheck
        split at hadd
        · cases hadd
        · cases hadd
          exact hpop.add hnew now

/-- A neighbour that is removed goes to the swarm bucket. -/
lemma neighbourhoodRemovePeer_noneLost (hinv : TopologyInv t) (h : t.NoneLost) (i : ID) :
    (t.neighbourhoodRemovePeer i).NoneLost := by
  rw [neighbourhoodRemovePeer, popPeer_eq]
  cases hget : peersetGetPeer t.neighbourhood i with
  | some q =>
      obtain ⟨hq, rfl⟩ := peersetGetPeer_eq_some.mp hget
      obtain ⟨-, hunion, -⟩ := hinv.placed.move hq
      exact h.mono fun r => (hunion r).mpr
  | none => exact h.popNone (peersetGetPeer_eq_none.mp hget)

lemma nodeidToPeer_noneLost {reg : Bool} {found : Option (Peer ID)} (hinv : TopologyInv t)
    (h : t.NoneLost) (hlook : t.nodeidToPeer i reg now = .ok (t', found, sent)) : t'.NoneLost := by
  rcases nodeidToPeer_cases hlook with ⟨-, -, p, msg, hadd⟩ | ⟨-, rfl⟩
  · exact neighbourhoodAddPeer_noneLost (topologyNodeInsert_inv hinv i now)
      (topologyNodeInsert_noneLost h i now) hadd
  · exact h

lemma handleNeighbourhoodMessage_noneLost {type : UInt8} {m : Option Metadata}
    (hinv : TopologyInv t) (h : t.NoneLost)
    (hmsg : t.handleNeighbourhoodMessage source type m now = .ok (t', sent)) : t'.NoneLost := by
  rcases handleNeighbourhoodMessage_cases hmsg with
    ⟨-, t₁, p, msg, hadd, hdone⟩ | ⟨-, rfl | rfl | hremove⟩
  · have hadded := neighbourhoodAddPeer_noneLost hinv h hadd
    rcases hdone with ⟨-, rfl⟩ | ⟨d, -, hset⟩
    · exact hadded
    · -- the metadata are those of the new neighbour
      obtain ⟨t₂, q, hadd', -, hq, -⟩ := neighbourhoodAddPeer_inv hinv source now
      rw [hadd] at hadd'
      cases hadd'
      exact peerSetMetadata_noneLost hadded (Or.inl hq) hset
  · exact h
  · exact neighbourhoodRemovePeer_noneLost hinv h source
  · exact topologyRemovePeer_noneLost h hremove

lemma topologySamplePeers_noneLost {sample : List (ID × Metadata)} (h : t.NoneLost)
    (hsample : t.topologySamplePeers now sample = .ok t') : t'.NoneLost := by
  induction sample generalizing t with
  | nil =>
      cases hsample
      exact h
  | cons im sample ih =>
      obtain ⟨t₁, p, t₂, hknown, hp, hset, hrest⟩ := topologySamplePeers_cons hsample
      have h₁ : t₁.NoneLost := by
        rw [← hknown]
        split_ifs with hnew
        · exact addToSwarm_noneLost h hnew now
        · exact h
      exact ih (peerSetMetadata_noneLost h₁ (mem_of_topologyGetPeer hp).1 hset) hrest

lemma dropUnactivesLoop_noneLost {is : List ℕ} (h : t.NoneLost)
    (hdrop : t.dropUnactivesLoop told is = .ok t') : t'.NoneLost := by
  induction is generalizing t with
  | nil =>
      cases hdrop
      exact h
  | cons k is ih =>
      rcases dropUnactivesLoop_cons hdrop with rfl | hrest | ⟨q, t₁, hremove, hrest⟩
      · exact h
      · exact ih h hrest
      · exact ih (topologyRemovePeer_noneLost h hremove) hrest

lemma topologyRefresh_noneLost {u : UpdateInput ID} (h : t.NoneLost)
    (hrefresh : t.topologyRefresh u = .ok t') : t'.NoneLost := by
  simp only [topologyRefresh, Eval.bind_eq_ok] at hrefresh
  obtain ⟨t₁, hsample, hdrop⟩ := hrefresh
  have h₁ : t₁.NoneLost :=
    topologySamplePeers_noneLost (t := t.updateMetadata u.cbSize) h hsample
  split_ifs at hdrop
  · exact dropUnactivesLoop_noneLost h₁ hdrop
  · cases hdrop
    exact h₁

/-- The exchange moves peers, and frees those that are in the swarm bucket then. -/
lemma topologyExchange_noneLost {u : UpdateInput ID} (hinv : TopologyInv t) (h : t.NoneLost)
    (hex : t.topologyExchange u = .ok (t', sent)) : t'.NoneLost := by
  obtain ⟨n, b, hrandom, -, hunion⟩ := topologyUpdateRandom_placed hinv.placed u.discard u.add
  have hmoved : Held t.heap n b := h.mono fun p => (hunion p).mpr
  simp only [topologyExchange, hrandom, Eval.ok_bind, peersetDestroyReferenceCopy_eq,
    Eval.bind_eq_ok, Eval.pure_eq_ok, Except.ok.injEq, Prod.mk.injEq] at hex
  obtain ⟨-, -, heap, hfree, rfl, -⟩ := hex
  exact hmoved.clear hfree

lemma topologyUpdate_noneLost {u : UpdateInput ID} (hinv : TopologyInv t) (h : t.NoneLost)
    (hupdate : t.topologyUpdate u = .ok (t', sent)) : t'.NoneLost := by
  simp only [topologyUpdate, Eval.bind_eq_ok] at hupdate
  obtain ⟨t₁, hrefresh, hex⟩ := hupdate
  obtain ⟨t₂, hrefresh', hinv₂⟩ := topologyRefresh_inv hinv u
  obtain rfl := Except.ok.inj (hrefresh.symm.trans hrefresh')
  exact topologyExchange_noneLost hinv₂ (topologyRefresh_noneLost h hrefresh) hex

/-- **No operation loses an object.** -/
lemma topologyStep_noneLost {op : TopologyOp ID} (hinv : TopologyInv t) (h : t.NoneLost)
    (hstep : t.topologyStep op = .ok (t', sent)) : t'.NoneLost := by
  cases op with
  | nodeInsert i now =>
      cases hstep
      exact topologyNodeInsert_noneLost h i now
  | lookUp i reg now =>
      simp only [topologyStep, Eval.bind_eq_ok, Eval.pure_eq_ok, Except.ok.injEq,
        Prod.mk.injEq] at hstep
      obtain ⟨⟨t₁, p, sent₁⟩, hlook, rfl, -⟩ := hstep
      exact nodeidToPeer_noneLost hinv h hlook
  | message source type m now => exact handleNeighbourhoodMessage_noneLost hinv h hstep
  | heard i now =>
      simp only [topologyStep] at hstep
      cases hp : t.topologyGetPeer i with
      | none =>
          simp only [hp] at hstep
          cases hstep
          exact h
      | some p =>
          simp only [hp, Eval.bind_eq_ok, Eval.pure_eq_ok, Except.ok.injEq,
            Prod.mk.injEq] at hstep
          obtain ⟨t₁, hstamp, rfl, -⟩ := hstep
          exact peerSetBmapTimestamp_noneLost h (mem_of_topologyGetPeer hp).1 hstamp
  | update u => exact topologyUpdate_noneLost hinv h hstep

end Operations

/-! ## The end -/

variable {t : Topology S}

/-- No object belongs to two peers. -/
lemma existsUnique_owner (hinv : TopologyInv t) (h : t.NoneLost) {r : ℕ}
    (hr : t.heap.data r ≠ none) :
    ∃! p, (p ∈ getPeers t.neighbourhood ∨ p ∈ getPeers t.swarmBucket) ∧ p.ref = r := by
  obtain ⟨p, hp, rfl⟩ := h r hr
  exact ⟨p, ⟨hp, rfl⟩, fun q hq => hinv.placed.owner q p hq.1 hp hq.2⟩

variable [DecidableEq ID] [LawfulPeerSet ID S]

/-- **The node quits**: everyone it knows is told once. -/
lemma topologyQuitOverlay_eq (hp : Placed t.heap t.neighbourhood t.swarmBucket) :
    ∃ sent, t.topologyQuitOverlay = .ok sent ∧ ∀ i, sent.filter (·.dst = i)
      = if (t.topologyGetPeer i).isSome then [.neighbourhood i .quit t.myMetadata] else [] := by
  let quit (p : Peer ID) : TopologyMessage ID := .neighbourhood p.id .quit t.myMetadata
  have htell : ∀ ps : List (Peer ID),
      (∀ p ∈ ps, p ∈ getPeers t.neighbourhood ∨ p ∈ getPeers t.swarmBucket) →
      ps.mapM (t.neighbourhoodSendMsg · .quit) = .ok (ps.map quit) := fun ps hps =>
    Eval.mapM_eq_ok fun p hm => neighbourhoodSendMsg_eq hp (hps p hm) .quit
  have hone : ∀ (s : S) (i : ID), ((getPeers s).map quit).filter (·.dst = i)
      = (peersetGetPeer s i).toList.map quit := by
    intro s i
    rw [List.filter_map, ← filter_getPeers]
    rfl
  refine ⟨(getPeers t.neighbourhood).map quit ++ (getPeers t.swarmBucket).map quit, ?_, fun i => ?_⟩
  · rw [topologyQuitOverlay, htell _ fun p => Or.inl, htell _ fun p => Or.inr]
    rfl
  · rw [List.filter_append, hone, hone, topologyGetPeer]
    cases hn : peersetGetPeer t.neighbourhood i with
    | none =>
        cases hb : peersetGetPeer t.swarmBucket i with
        | none => rfl
        | some q =>
            obtain ⟨-, rfl⟩ := peersetGetPeer_eq_some.mp hb
            rfl
    | some p =>
        obtain ⟨hmem, rfl⟩ := peersetGetPeer_eq_some.mp hn
        have hb : peersetGetPeer t.swarmBucket p.id = none :=
          peersetGetPeer_eq_none.mpr fun q hq he => hp.disjoint p hmem q hq he.symm
        rw [hb]
        rfl

/-- **All objects are freed**, the locked peers being only copies. -/
lemma topologyDestroy_eq (hinv : TopologyInv t) (h : t.NoneLost) :
    ∃ heap sent, t.topologyQuitOverlay = .ok sent ∧ t.topologyDestroy = .ok (heap, sent)
      ∧ ∀ r, heap.data r = none := by
  obtain ⟨sent, hquit, -⟩ := topologyQuitOverlay_eq hinv.placed
  have hread : ∀ p ∈ getPeers t.lockedNeighs, ∃ d, t.heap.read p.ref = .ok d := fun p hp =>
    hinv.placed.read (Or.inl (hinv.locked p hp))
  obtain ⟨ds, hlocked⟩ := Eval.exists_mapM hread
  -- first the neighbours, then the others
  obtain ⟨heap₁, hn, hplaced₁⟩ := hinv.placed.symm.clear
  obtain ⟨heap₂, hb, -⟩ := hplaced₁.symm.clear
  have hleft : Held heap₂ (PeerSet.clear t.neighbourhood) (PeerSet.clear t.swarmBucket) :=
    (h.symm.clear hn).symm.clear hb
  refine ⟨heap₂, sent, hquit, ?_, fun r => ?_⟩
  · simp [topologyDestroy, hquit, hlocked, peersetDestroyReferenceCopy_eq, hn, hb]
  · by_contra hr
    obtain ⟨p, hp, -⟩ := hleft r hr
    simp at hp

/-- What holds after any operations. -/
lemma noneLost_of_run {neighbourhoodSize peerTimeout : ℤ} {cbSize : ℕ}
    {ops : List (TopologyOp ID)} {outs : List (List (TopologyMessage ID))}
    (hrun : exec topologyStep (topologyInit neighbourhoodSize peerTimeout cbSize) ops
      = .ok (t, outs)) : TopologyInv t ∧ t.NoneLost := by
  refine exec_history (J := fun _ _ t => TopologyInv t ∧ t.NoneLost) hrun
    ⟨topologyInit_inv neighbourhoodSize peerTimeout cbSize, ?_⟩ ?_
  · intro r hr
    exact absurd rfl hr
  · rintro - - t op sent t' ⟨hinv, hlost⟩ hstep
    obtain ⟨t₁, sent₁, hstep₁, hinv₁⟩ := topologyStep_inv hinv op
    obtain ⟨rfl, -⟩ := ok_unique hstep₁ hstep
    exact ⟨hinv₁, topologyStep_noneLost hinv hlost hstep⟩

/-- **The objects of peers, from the first to the last.**  After any operations there is an object
for every known peer, for each a different one, and no other.  If the topology is destroyed then,
every peer that is known is sent one quit message and nobody else is sent anything; nothing is read
or freed that has been freed before; and no object is left. -/
theorem topology_destroyed (neighbourhoodSize peerTimeout : ℤ) (cbSize : ℕ)
    (ops : List (TopologyOp ID)) :
    ∃ (t : Topology S) (outs : List (List (TopologyMessage ID))),
      exec topologyStep (topologyInit neighbourhoodSize peerTimeout cbSize) ops = .ok (t, outs)
      ∧ (∀ p, p ∈ getPeers t.neighbourhood ∨ p ∈ getPeers t.swarmBucket →
          t.heap.data p.ref ≠ none)
      ∧ (∀ r, t.heap.data r ≠ none →
          ∃! p, (p ∈ getPeers t.neighbourhood ∨ p ∈ getPeers t.swarmBucket) ∧ p.ref = r)
      ∧ ∃ heap sent, t.topologyDestroy = .ok (heap, sent) ∧ (∀ r, heap.data r = none)
        ∧ ∀ i, sent.filter (·.dst = i)
          = if (t.topologyGetPeer i).isSome then [.neighbourhood i .quit t.myMetadata] else [] := by
  obtain ⟨t, outs, hrun, -⟩ := topologyRun_inv (S := S) neighbourhoodSize peerTimeout cbSize ops
  obtain ⟨hinv, hlost⟩ := noneLost_of_run hrun
  obtain ⟨sent, hquit, htold⟩ := topologyQuitOverlay_eq hinv.placed
  obtain ⟨heap, sent', hquit', hdestroy, hfreed⟩ := topologyDestroy_eq hinv hlost
  obtain rfl := Except.ok.inj (hquit.symm.trans hquit')
  exact ⟨t, outs, hrun, fun p => hinv.placed.live p, fun r => existsUnique_owner hinv hlost, heap,
    sent, hdestroy, hfreed, htold⟩

/-- A neighbour is exchanged in an update, and a new one is locked at the end. -/
theorem topology_destroyed_locked :
    ∃ (t : Topology (PeerList ℕ)) (outs : List (List (TopologyMessage ℕ))),
      exec topologyStep (topologyInit 4 10 50)
        (fiveNodes ++ [.update exchangeOne, .message 9 0 none 2]) = .ok (t, outs)
      ∧ (∀ p, p ∈ getPeers t.neighbourhood ∨ p ∈ getPeers t.swarmBucket →
          t.heap.data p.ref ≠ none)
      ∧ (∀ r, t.heap.data r ≠ none →
          ∃! p, (p ∈ getPeers t.neighbourhood ∨ p ∈ getPeers t.swarmBucket) ∧ p.ref = r)
      ∧ ∃ heap sent, t.topologyDestroy = .ok (heap, sent) ∧ (∀ r, heap.data r = none)
        ∧ ∀ i, sent.filter (·.dst = i)
          = if (t.topologyGetPeer i).isSome then [.neighbourhood i .quit t.myMetadata] else [] :=
  topology_destroyed 4 10 50 _

end Topology

end PeerStreamer
