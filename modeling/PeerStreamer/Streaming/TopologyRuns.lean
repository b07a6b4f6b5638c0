import PeerStreamer.Streaming.TopologyUpdate

/-!
# Runs of the topology

`TopologyOp` is what can happen to a topology after `topology_init`, in any order.  The
configuration is never changed.  The invariant of the sets holds throughout (`topology_sets`), and
every update tells the nodes that have become neighbours or ceased to be (`topology_signalling`).
-/

namespace PeerStreamer

/-! ## What an operation does -/

namespace Topology

variable {ID S : Type} {t t' : Topology S} {p : Peer ID} {i source : ID} {now told : ℤ}
  {sent : List (TopologyMessage ID)}

section Cases

variable [PeerSet ID S]

/-- One position of the loop over the neighbours. -/
lemma dropUnactivesLoop_cons {k : ℕ} {is : List ℕ}
    (h : t.dropUnactivesLoop told (k :: is) = .ok t') :
    t' = t ∨ t.dropUnactivesLoop told is = .ok t'
      ∨ ∃ p t₁, t.topologyRemovePeer p = .ok t₁ ∧ t₁.dropUnactivesLoop told is = .ok t' := by
  rw [dropUnactivesLoop] at h
  cases hp : (getPeers t.neighbourhood)[k]? with
  | none =>
      simp only [hp] at h
      cases h
      exact Or.inl rfl
  | some p =>
      simp only [hp, Eval.bind_eq_ok] at h
      obtain ⟨d, -, h⟩ := h
      cases hd : inactive d told with
      | true =>
          simp only [hd, if_true, Eval.bind_eq_ok] at h
          obtain ⟨t₁, hremove, hrest⟩ := h
          exact Or.inr (Or.inr ⟨p.id, t₁, hremove, hrest⟩)
      | false =>
          simp only [hd, Bool.false_eq_true, if_false, Eval.pure_eq_ok, Eval.ok_bind] at h
          exact Or.inr (Or.inl h)

variable [DecidableEq ID]

/-- One peer of a sample. -/
lemma topologySamplePeers_cons {m : Metadata} {sample : List (ID × Metadata)}
    (h : t.topologySamplePeers now ((i, m) :: sample) = .ok t') :
    ∃ t₁ p t₂, (if t.topologyGetPeer i = none then t.addToSwarm i now else t) = t₁
      ∧ t₁.topologyGetPeer i = some p ∧ t₁.peerSetMetadata p m = .ok t₂
      ∧ t₂.topologySamplePeers now sample = .ok t' := by
  rw [topologySamplePeers] at h
  generalize hknown : (if t.topologyGetPeer i = none then t.addToSwarm i now else t) = t₁ at h
  cases hp : t₁.topologyGetPeer i with
  | none =>
      simp only [hp] at h
      cases h
  | some p =>
      simp only [hp, Eval.bind_eq_ok] at h
      obtain ⟨t₂, hset, hrest⟩ := h
      exact ⟨t₁, p, t₂, rfl, hp, hset, hrest⟩

/-- A look-up registers a node that is unknown, or does nothing. -/
lemma nodeidToPeer_cases {reg : Bool} {found : Option (Peer ID)}
    (h : t.nodeidToPeer i reg now = .ok (t', found, sent)) :
    (t.topologyGetPeer i = none ∧ reg = true
        ∧ ∃ p msg, (t.topologyNodeInsert i now).neighbourhoodAddPeer i now = .ok (t', p, msg))
      ∨ ¬(t.topologyGetPeer i = none ∧ reg = true) ∧ t' = t := by
  rw [nodeidToPeer] at h
  split_ifs at h with hnew
  · simp only [Eval.bind_eq_ok] at h
    obtain ⟨⟨t₁, p, msg⟩, hadd, h⟩ := h
    refine Or.inl ⟨hnew.1, hnew.2, p, msg, ?_⟩
    cases hget : t₁.topologyGetPeer i with
    | none =>
        simp only [hget] at h
        cases h
    | some q =>
        simp only [hget] at h
        split_ifs at h
        · simp only [Eval.bind_eq_ok, Eval.pure_eq_ok, Except.ok.injEq, Prod.mk.injEq] at h
          obtain ⟨-, -, rfl, -⟩ := h
          exact hadd
        · cases h
          exact hadd
  · cases h
    exact Or.inr ⟨hnew, rfl⟩

/-- A message adds its sender, with metadata or without, or removes it, or does nothing. -/
lemma handleNeighbourhoodMessage_cases {type : UInt8} {m : Option Metadata}
    (h : t.handleNeighbourhoodMessage source type m now = .ok (t', sent)) :
    ((t.topoIn = true ∧ type = 0) ∧ ∃ t₁ p msg, t.neighbourhoodAddPeer source now = .ok (t₁, p, msg)
        ∧ ((m = none ∧ t' = t₁) ∨ ∃ d, m = some d ∧ t₁.peerSetMetadata p d = .ok t'))
      ∨ ¬(t.topoIn = true ∧ type = 0) ∧ (t' = t ∨ t' = t.neighbourhoodRemovePeer source
        ∨ t.topologyRemovePeer source = .ok t') := by
  rw [handleNeighbourhoodMessage, neighbourhoodMessageParse] at h
  split_ifs at h with hin hadd hremove hquit
  · refine Or.inl ⟨⟨hin, hadd⟩, ?_⟩
    simp only [Eval.bind_eq_ok] at h
    obtain ⟨⟨t₁, p, msg⟩, hone, h⟩ := h
    refine ⟨t₁, p, msg, hone, ?_⟩
    cases m with
    | none =>
        cases h
        exact Or.inl ⟨rfl, rfl⟩
    | some d =>
        simp only [Eval.bind_eq_ok, Eval.pure_eq_ok, Except.ok.injEq, Prod.mk.injEq] at h
        obtain ⟨t₂, hset, rfl, -⟩ := h
        exact Or.inr ⟨d, rfl, hset⟩
  · cases h
    exact Or.inr ⟨fun hc => hadd hc.2, Or.inr (Or.inl rfl)⟩
  · simp only [Eval.bind_eq_ok, Eval.pure_eq_ok, Except.ok.injEq, Prod.mk.injEq] at h
    obtain ⟨t₁, hone, rfl, -⟩ := h
    exact Or.inr ⟨fun hc => hadd hc.2, Or.inr (Or.inr hone)⟩
  · cases h
    exact Or.inr ⟨fun hc => hadd hc.2, Or.inl rfl⟩
  · cases h
    exact Or.inr ⟨fun hc => hin hc.1, Or.inl rfl⟩

end Cases

/-! ## What is configured -/

section Configuration

/-- What `topology_init` sets once and for all. -/
def configuration (t : Topology S) : ℚ × Bool × Bool × ℤ × ℤ :=
  (t.topoMem, t.topoOut, t.topoIn, t.neighbourhoodTargetSize, t.toutBmap)

lemma toutBmap_eq (h : t'.configuration = t.configuration) : t'.toutBmap = t.toutBmap :=
  congrArg (·.2.2.2.2) h

lemma peerSetMetadata_configuration {m : Metadata} (h : t.peerSetMetadata p m = .ok t') :
    t'.configuration = t.configuration := by
  simp only [peerSetMetadata, Eval.bind_eq_ok, Eval.pure_eq_ok, Except.ok.injEq] at h
  obtain ⟨-, -, -, -, rfl⟩ := h
  rfl

lemma peerSetBmapTimestamp_configuration (h : t.peerSetBmapTimestamp p now = .ok t') :
    t'.configuration = t.configuration := by
  simp only [peerSetBmapTimestamp, Eval.bind_eq_ok, Eval.pure_eq_ok, Except.ok.injEq] at h
  obtain ⟨-, -, -, -, rfl⟩ := h
  rfl

variable [PeerSet ID S]

lemma topologyRemovePeer_configuration (h : t.topologyRemovePeer i = .ok t') :
    t'.configuration = t.configuration := by
  simp only [topologyRemovePeer, Eval.bind_eq_ok, Eval.pure_eq_ok, Except.ok.injEq] at h
  obtain ⟨-, -, -, -, rfl⟩ := h
  rfl

lemma dropUnactivesLoop_configuration {is : List ℕ} (h : t.dropUnactivesLoop told is = .ok t') :
    t'.configuration = t.configuration := by
  induction is generalizing t with
  | nil =>
      cases h
      rfl
  | cons k is ih =>
      rcases dropUnactivesLoop_cons h with rfl | hrest | ⟨q, t₁, hremove, hrest⟩
      · rfl
      · exact ih hrest
      · rw [ih hrest, topologyRemovePeer_configuration hremove]

variable [DecidableEq ID]

lemma topologyNodeInsert_configuration :
    (t.topologyNodeInsert i now).configuration = t.configuration := by
  rw [topologyNodeInsert]
  split_ifs <;> rfl

lemma neighbourhoodAddPeer_configuration {msg : TopologyMessage ID}
    (h : t.neighbourhoodAddPeer i now = .ok (t', p, msg)) :
    t'.configuration = t.configuration := by
  rw [neighbourhoodAddPeer] at h
  split at h
  · cases h
    rfl
  · simp only at h
    split at h
    · cases h
    · cases h
      rfl

lemma topologySamplePeers_configuration {sample : List (ID × Metadata)}
    (h : t.topologySamplePeers now sample = .ok t') : t'.configuration = t.configuration := by
  induction sample generalizing t with
  | nil =>
      cases h
      rfl
  | cons im sample ih =>
      obtain ⟨t₁, p, t₂, hknown, -, hset, hrest⟩ := topologySamplePeers_cons h
      have hsame : t₁.configuration = t.configuration := by
        rw [← hknown]
        split_ifs <;> rfl
      rw [ih hrest, peerSetMetadata_configuration hset, hsame]

lemma topologyUpdate_configuration {u : UpdateInput ID} (h : t.topologyUpdate u = .ok (t', sent)) :
    t'.configuration = t.configuration := by
  simp only [topologyUpdate, topologyRefresh, Eval.bind_eq_ok] at h
  obtain ⟨t₁, ⟨t₀, hsample, hdrop⟩, hex⟩ := h
  have hrefresh : t₁.configuration = t.configuration := by
    have hsample := topologySamplePeers_configuration hsample
    split_ifs at hdrop
    · rw [dropUnactivesLoop_configuration hdrop, hsample]
      rfl
    · cases hdrop
      exact hsample
  simp only [topologyExchange, topologyUpdateRandom, Eval.bind_eq_ok, Eval.pure_eq_ok,
    Except.ok.injEq, Prod.mk.injEq] at hex
  obtain ⟨-, ⟨-, -, -, -, rfl⟩, -, -, -, -, -, -, rfl, -⟩ := hex
  exact hrefresh

lemma nodeidToPeer_configuration {reg : Bool} {found : Option (Peer ID)}
    (h : t.nodeidToPeer i reg now = .ok (t', found, sent)) :
    t'.configuration = t.configuration := by
  rcases nodeidToPeer_cases h with ⟨-, -, p, msg, hadd⟩ | ⟨-, rfl⟩
  · rw [neighbourhoodAddPeer_configuration hadd, topologyNodeInsert_configuration]
  · rfl

lemma handleNeighbourhoodMessage_configuration {type : UInt8} {m : Option Metadata}
    (h : t.handleNeighbourhoodMessage source type m now = .ok (t', sent)) :
    t'.configuration = t.configuration := by
  rcases handleNeighbourhoodMessage_cases h with
    ⟨-, t₁, p, msg, hadd, ⟨-, rfl⟩ | ⟨d, -, hset⟩⟩ | ⟨-, rfl | rfl | hremove⟩
  · exact neighbourhoodAddPeer_configuration hadd
  · rw [peerSetMetadata_configuration hset, neighbourhoodAddPeer_configuration hadd]
  · rfl
  · rfl
  · exact topologyRemovePeer_configuration hremove

end Configuration

end Topology

/-! ## Operations -/

/-- What happens to a topology. -/
inductive TopologyOp (ID : Type)
  | nodeInsert (i : ID) (now : ℤ)
  | lookUp (i : ID) (reg : Bool) (now : ℤ)
  | message (source : ID) (type : UInt8) (m : Option Metadata) (now : ℤ)
  | heard (i : ID) (now : ℤ)
  | update (u : Topology.UpdateInput ID)

variable {ID S : Type} [DecidableEq ID] [PeerSet ID S]

namespace Topology

/-- One operation, with the messages it sends.  The trader stamps only peers it has looked up. -/
def topologyStep (t : Topology S) : TopologyOp ID → Eval (Topology S × List (TopologyMessage ID))
  | .nodeInsert i now => return (t.topologyNodeInsert i now, [])
  | .lookUp i reg now => do
      let (t, _, sent) ← t.nodeidToPeer i reg now
      return (t, sent)
  | .message source type m now => t.handleNeighbourhoodMessage source type m now
  | .heard i now =>
      match t.topologyGetPeer i with
      | none => return (t, [])
      | some p => do
          let t ← t.peerSetBmapTimestamp p now
          return (t, [])
  | .update u => t.topologyUpdate u

/-- Every operation keeps the configuration. -/
lemma topologyStep_configuration {t t' : Topology S} {op : TopologyOp ID}
    {sent : List (TopologyMessage ID)} (h : t.topologyStep op = .ok (t', sent)) :
    t'.configuration = t.configuration := by
  cases op with
  | nodeInsert i now =>
      cases h
      exact topologyNodeInsert_configuration
  | lookUp i reg now =>
      simp only [topologyStep, Eval.bind_eq_ok, Eval.pure_eq_ok, Except.ok.injEq,
        Prod.mk.injEq] at h
      obtain ⟨⟨t₁, p, sent₁⟩, hlook, rfl, -⟩ := h
      exact nodeidToPeer_configuration hlook
  | message source type m now => exact handleNeighbourhoodMessage_configuration h
  | heard i now =>
      simp only [topologyStep] at h
      split at h
      · cases h
        rfl
      · simp only [Eval.bind_eq_ok, Eval.pure_eq_ok, Except.ok.injEq, Prod.mk.injEq] at h
        obtain ⟨t₁, hstamp, rfl, -⟩ := h
        exact peerSetBmapTimestamp_configuration hstamp
  | update u => exact topologyUpdate_configuration h

variable [LawfulPeerSet ID S] {t : Topology S}

/-- Every operation keeps the invariant. -/
lemma topologyStep_inv (h : TopologyInv t) (op : TopologyOp ID) :
    ∃ t' sent, t.topologyStep op = .ok (t', sent) ∧ TopologyInv t' := by
  cases op with
  | nodeInsert i now => exact ⟨_, [], rfl, topologyNodeInsert_inv h i now⟩
  | lookUp i reg now =>
      obtain ⟨t', p, sent, hlook, hinv, -⟩ := nodeidToPeer_inv h i reg now
      exact ⟨t', sent, by simp [topologyStep, hlook], hinv⟩
  | message source type m now => exact handleNeighbourhoodMessage_inv h source type m now
  | heard i now =>
      simp only [topologyStep]
      cases hp : t.topologyGetPeer i with
      | none => exact ⟨t, [], rfl, h⟩
      | some p =>
          obtain ⟨heap, hstamp, hinv⟩ :=
            peerSetBmapTimestamp_inv h (mem_of_topologyGetPeer hp).1 now
          exact ⟨_, [], by simp [hstamp], hinv⟩
  | update u =>
      obtain ⟨-, t', sent, -, hupdate, hinv, -⟩ := topologyUpdate_inv h u
      exact ⟨t', sent, hupdate, hinv⟩

/-- Every run of operations succeeds and ends in the invariant. -/
lemma topologyRun_inv (neighbourhoodSize peerTimeout : ℤ) (cbSize : ℕ)
    (ops : List (TopologyOp ID)) :
    ∃ t sent, exec topologyStep (topologyInit neighbourhoodSize peerTimeout cbSize : Topology S) ops
      = .ok (t, sent) ∧ TopologyInv t :=
  exec_total (J := fun _ _ t => TopologyInv t)
    (topologyInit_inv neighbourhoodSize peerTimeout cbSize)
    fun _ op _ _ _ _ h => topologyStep_inv h op

/-- What is known of a state that a run leads to. -/
lemma topologyInv_of_run {neighbourhoodSize peerTimeout : ℤ} {cbSize : ℕ}
    {ops : List (TopologyOp ID)} {outs : List (List (TopologyMessage ID))}
    (hrun : exec topologyStep (topologyInit neighbourhoodSize peerTimeout cbSize) ops
      = .ok (t, outs)) :
    TopologyInv t ∧ t.configuration
      = (topologyInit neighbourhoodSize peerTimeout cbSize : Topology S).configuration := by
  refine exec_history (J := fun _ _ t => TopologyInv t ∧ t.configuration
    = (topologyInit neighbourhoodSize peerTimeout cbSize : Topology S).configuration) hrun
    ⟨topologyInit_inv neighbourhoodSize peerTimeout cbSize, rfl⟩ ?_
  rintro - - t op sent t' ⟨hinv, hconf⟩ hstep
  obtain ⟨t₁, sent₁, hstep₁, hinv₁⟩ := topologyStep_inv hinv op
  obtain ⟨rfl, -⟩ := ok_unique hstep₁ hstep
  exact ⟨hinv₁, (topologyStep_configuration hstep).trans hconf⟩

/-- **The sets of the topology.**  After any operations no id is both in the neighbourhood and in
the swarm bucket, and what is locked is the peer object the neighbourhood has under that id. -/
theorem topology_sets (neighbourhoodSize peerTimeout : ℤ) (cbSize : ℕ)
    (ops : List (TopologyOp ID)) :
    ∃ t sent, exec topologyStep (topologyInit neighbourhoodSize peerTimeout cbSize : Topology S) ops
        = .ok (t, sent)
      ∧ (∀ i, ¬(i ∈ peerIds t.neighbourhood ∧ i ∈ peerIds t.swarmBucket))
      ∧ ∀ p ∈ getPeers t.lockedNeighs,
          peersetGetPeer t.neighbourhood p.id = some p ∧ t.heap.data p.ref ≠ none := by
  obtain ⟨t, sent, hrun, hinv⟩ := topologyRun_inv (S := S) neighbourhoodSize peerTimeout cbSize ops
  refine ⟨t, sent, hrun, ?_, fun p hp => ⟨?_, ?_⟩⟩
  · rintro i ⟨h₁, h₂⟩
    obtain ⟨p, hp, rfl⟩ := List.mem_map.mp h₁
    obtain ⟨q, hq, he⟩ := List.mem_map.mp h₂
    exact hinv.placed.disjoint p hp q hq he.symm
  · exact peersetGetPeer_eq_some.mpr ⟨hinv.locked p hp, rfl⟩
  · exact hinv.placed.live p (Or.inl (hinv.locked p hp))

/-- A node that is unknown introduces itself, leaves after an update and comes back. -/
theorem topology_sets_met_again :
    ∃ t sent, exec topologyStep (topologyInit 1 10 50 : Topology (PeerList ℕ))
        [.message 7 0 (some ⟨50, 3⟩) 0, .update ⟨50, [(8, ⟨40, 2⟩)], 1, 1, fun _ => 0, fun _ => 0⟩,
          .message 7 1 none 2, .message 7 0 none 3] = .ok (t, sent)
      ∧ (∀ i, ¬(i ∈ peerIds t.neighbourhood ∧ i ∈ peerIds t.swarmBucket))
      ∧ ∀ p ∈ getPeers t.lockedNeighs,
          peersetGetPeer t.neighbourhood p.id = some p ∧ t.heap.data p.ref ≠ none :=
  topology_sets 1 10 50 _

/-- **Signalling matches the change.**  After any operations an update succeeds; every node is
sent what it is owed for the change from the neighbours there were after inactive ones had been
dropped to those there are in the end — one message if it has become a neighbour or ceased to be
one, and none otherwise — and the swarm bucket is empty. -/
theorem topology_signalling (neighbourhoodSize peerTimeout : ℤ) (cbSize : ℕ)
    (ops : List (TopologyOp ID)) (u : UpdateInput ID) :
    ∃ (t : Topology S) (outs : List (List (TopologyMessage ID))),
      exec topologyStep (topologyInit neighbourhoodSize peerTimeout cbSize) ops = .ok (t, outs)
      ∧ t.topoOut = true
      ∧ ∃ t₁ t₂ sent, t.topologyRefresh u = .ok t₁ ∧ t.topologyUpdate u = .ok (t₂, sent)
        ∧ (∀ i, sent.filter (·.dst = i) = owed t₁.neighbourhood t₂.neighbourhood t₁.myMetadata i)
        ∧ peerIds t₂.swarmBucket = [] := by
  obtain ⟨t, outs, hrun, hinv⟩ := topologyRun_inv (S := S) neighbourhoodSize peerTimeout cbSize ops
  obtain ⟨t₁, t₂, sent, hrefresh, hupdate, -, hsent, hswarm⟩ := topologyUpdate_inv hinv u
  exact ⟨t, outs, hrun, hinv.tells, t₁, t₂, sent, hrefresh, hupdate, hsent, by
    rw [peerIds, hswarm, List.map_nil]⟩

/-- Four nodes introduce themselves, and a fifth one is known. -/
def fiveNodes : List (TopologyOp ℕ) :=
  [.message 1 0 none 0, .message 2 0 none 0, .message 3 0 none 0, .message 4 0 none 0,
    .nodeInsert 8 0]

/-- What is drawn for an update that has the node 8 take the place of the node 1. -/
def exchangeOne : UpdateInput ℕ :=
  ⟨50, [(8, ⟨40, 2⟩)], 1, 1, fun _ => Fin.last RAND_MAX, fun _ => Fin.last RAND_MAX⟩

/-- One neighbour of four is exchanged. -/
theorem topology_signalling_exchanged :
    ∃ (t : Topology (PeerList ℕ)) (outs : List (List (TopologyMessage ℕ))),
      exec topologyStep (topologyInit 4 10 50) fiveNodes = .ok (t, outs)
      ∧ t.topoOut = true
      ∧ ∃ t₁ t₂ sent, t.topologyRefresh exchangeOne = .ok t₁
        ∧ t.topologyUpdate exchangeOne = .ok (t₂, sent)
        ∧ (∀ i, sent.filter (·.dst = i) = owed t₁.neighbourhood t₂.neighbourhood t₁.myMetadata i)
        ∧ peerIds t₂.swarmBucket = [] :=
  topology_signalling 4 10 50 _ _

/-- The new neighbour and the old one are told. -/
example : (exec topologyStep (topologyInit 4 10 50 : Topology (PeerList ℕ))
    (fiveNodes ++ [.update exchangeOne])).map (fun r => r.2.getLast?)
      = .ok (some [.neighbourhood 8 .add ⟨50, 4⟩, .neighbourhood 1 .remove ⟨50, 4⟩]) := by
  decide +kernel

end Topology

end PeerStreamer
