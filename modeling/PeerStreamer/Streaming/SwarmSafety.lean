import PeerStreamer.Streaming.Exchange
import PeerStreamer.Streaming.OfferTimer
import PeerStreamer.Streaming.ReorderBounds
import PeerStreamer.Streaming.TopologyRuns
import PeerStreamer.Streaming.Viewing

/-!
# No instance of the swarm fails

What the instances of a swarm send each other never makes one of them do something undefined
(`swarm_safe`), if they distribute uniformly and make an offer at least once a period, their output
buffers have room for a chunk, and no source comes near the last id: the sets of ids that are
offered are not empty and not too wide to be sorted by counting, chunks come with a hop count, and
their ids fit into the output buffers.

`Healthy` is what an instance keeps in every round, and `Handleable` what it needs of a message.
Node ids are values here, so nothing is said of an id that `neighbourhood_drop_unactives` uses after
its peer is gone; without a timeout for peers (`Safe.timeout`) it is never called.
-/

namespace PeerStreamer

variable {B C S ι : Type}

/-! ## One instance -/

/-- What an instance keeps. -/
structure Healthy [DecidableEq ι] [PeerSet ι S] (ps : PsInstance B ι S) : Prop where
  topology : TopologyInv ps.topology
  measure : ps.measure.state ≠ .ready
  period : 1 ≤ ps.trader.offerPerPeriod
  uniform : ps.trader.distType = .uniform

/-- A message that can be handled. -/
structure Handleable [ChunkIDSet C] (ps : PsInstance B ι S) (received : PsReceived C ι) : Prop where
  chunk : ∀ source c transId, received = .chunk source (some (c, transId)) →
    ∃ d hopcount, chunkAttributesUpdateUponReception c = .ok d
      ∧ chunkAttributesGetHopcount d = .ok hopcount
      ∧ ∀ o, ps.chunkOut = some o → ∃ r, outputDeliver o d = .ok r
  offer : ∀ source cset maxDeliver transId,
    received = .signalling source (some (.offer cset maxDeliver transId)) →
    ChunkIDSet.ids cset ≠ [] ∧ ∀ i ∈ ChunkIDSet.ids cset, 0 ≤ i ∧ i < INT_MAX

/-- A chunk that can be injected and pushed to whom the scheduler picks. -/
structure Injectable (pairs : List (ι × ℤ)) (c : Chunk) : Prop where
  hopcount : ∃ hopcount, chunkAttributesGetHopcount c = .ok hopcount
  pushed : ∀ pair ∈ pairs, pair.2 = c.id

section Instance

variable {ps ps' : PsInstance B ι S} {clk : Clock} {source : ι} {received : PsReceived C ι}
  {u : PollInput C ι}

lemma healthy_of_config [DecidableEq ι] [PeerSet ι S] (h : Healthy ps)
    (htopology : TopologyInv ps'.topology)
    (hmeasure : ps.measure.state ≠ .ready → ps'.measure.state ≠ .ready)
    (hconfig : ps'.trader.config = ps.trader.config) : Healthy ps' where
  topology := htopology
  measure := hmeasure h.measure
  period := by rw [ChunkTrader.offerPerPeriod_eq hconfig]; exact h.period
  uniform := (congrArg Prod.fst hconfig).trans h.uniform

lemma regChunkReceive_total {cie : ChunkIntervalEstimate} (h : cie.state ≠ .ready) (c : Chunk) :
    ∃ cie', regChunkReceive cie c = .ok cie' := by
  rw [regChunkReceive]
  cases hs : cie.state with
  | deinit => exact ⟨_, rfl⟩
  | loading => exact ⟨_, rfl⟩
  | ready => exact absurd hs h

variable [ChunkBuffer B]

/-- Chunks that are in the buffer can be sent. -/
lemma peerChunkSend_total [LawfulChunkBuffer B] {cb : B} (transId : UInt16) {pairs : List (ι × ℤ)}
    (h : ∀ pair ∈ pairs, pair.2 ∈ bufferIds cb) :
    ∃ messages, ChunkTrader.peerChunkSend (C := C) cb transId pairs = .ok messages := by
  induction pairs with
  | nil => exact ⟨_, rfl⟩
  | cons pair pairs ih =>
      obtain ⟨messages, hrest⟩ := ih fun q hq => h q (List.mem_cons_of_mem _ hq)
      have hthere := h pair List.mem_cons_self
      cases hget : ChunkBuffer.getChunk cb pair.2 with
      | none => exact absurd hthere (LawfulChunkBuffer.getChunk_eq_none cb pair.2 hget)
      | some c => exact ⟨_, by rw [ChunkTrader.peerChunkSend, hget]; simp [hrest]; rfl⟩

/-- A chunk that has just been accepted can be pushed. -/
lemma psinstanceInjectChunk_total [LawfulChunkBuffer B] (C : Type) (ps : PsInstance B ι S)
    {newChunk : Option Chunk} (interval : ℤ) {pairs : List (ι × ℤ)}
    (h : ∀ c, newChunk = some c → Injectable pairs c) :
    ∃ ps' sent, ps.psinstanceInjectChunk (C := C) newChunk interval pairs = .ok (ps', sent) := by
  rw [PsInstance.psinstanceInjectChunk]
  split_ifs with hsource
  · cases newChunk with
    | none => exact ⟨_, _, rfl⟩
    | some c =>
        obtain ⟨⟨hopcount, hcount⟩, hpairs⟩ := h c rfl
        simp only [ChunkTrader.chunkTraderAddChunk_total ps.trader hcount, Eval.ok_bind]
        by_cases hacc : (ChunkBuffer.addChunk ps.trader.cb c).2 < 0
        · simp only [hacc, if_true, neg_eq_zero, one_ne_zero, if_false]
          exact ⟨_, _, rfl⟩
        · have hthere := LawfulChunkBuffer.mem_accepted ps.trader.cb c (not_lt.mp hacc)
          have hpushed : ∀ pair ∈ pairs,
              pair.2 ∈ bufferIds (ChunkBuffer.addChunk ps.trader.cb c).1 :=
            fun pair hpair => by rw [hpairs pair hpair]; exact hthere
          obtain ⟨messages, hsend⟩ := peerChunkSend_total (C := C) INVALID_TRANSID hpushed
          simp only [hacc, if_false, if_true, hsend, Eval.ok_bind]
          exact ⟨_, _, rfl⟩
  · exact ⟨_, _, rfl⟩

lemma psinstanceInjectChunk_topology {newChunk : Option Chunk} {interval : ℤ}
    {pairs : List (ι × ℤ)} {sent : List (PsEffect C ι)}
    (h : ps.psinstanceInjectChunk newChunk interval pairs = .ok (ps', sent)) :
    ps'.topology = ps.topology := by
  rw [PsInstance.psinstanceInjectChunk] at h
  split_ifs at h
  · cases newChunk with
    | none =>
        cases h
        rfl
    | some c =>
        rw [Eval.bind_eq_ok] at h
        obtain ⟨⟨added, res⟩, -, h⟩ := h
        dsimp only at h
        split_ifs at h
        · simp only [Eval.bind_eq_ok, Eval.pure_eq_ok, Except.ok.injEq, Prod.mk.injEq] at h
          obtain ⟨chunks, -, rfl, -⟩ := h
          rfl
        · cases h
          rfl
  · cases h
    rfl

lemma handleChunk_topology [ChunkIDSet C] {msg : Option (Chunk × UInt16)}
    {sent : List (PsEffect C ι)} (h : ps.handleChunk source msg = .ok (ps', sent)) :
    ps'.topology = ps.topology := by
  rw [PsInstance.handleChunk] at h
  cases hout : ps.chunkOut with
  | none =>
      rw [hout] at h
      cases h
      rfl
  | some o =>
      simp only [hout, Eval.bind_eq_ok] at h
      obtain ⟨⟨trader, c, acks⟩, -, h⟩ := h
      cases c with
      | none =>
          cases h
          rfl
      | some c =>
          rw [Eval.bind_eq_ok] at h
          obtain ⟨⟨added, res⟩, -, h⟩ := h
          dsimp only at h
          split_ifs at h
          · simp only [Eval.bind_eq_ok, Eval.pure_eq_ok, Except.ok.injEq, Prod.mk.injEq] at h
            obtain ⟨measure, -, -, -, rfl, -⟩ := h
            rfl
          · cases h
            rfl

/-- A chunk that can be handled. -/
lemma handleChunk_total [ChunkIDSet C] {msg : Option (Chunk × UInt16)}
    (hm : ps.measure.state ≠ .ready)
    (h : Handleable (C := C) ps (.chunk source msg)) :
    ∃ ps' sent, ps.handleChunk (C := C) source msg = .ok (ps', sent) := by
  rw [PsInstance.handleChunk]
  cases hout : ps.chunkOut with
  | none => exact ⟨_, _, rfl⟩
  | some o =>
      cases msg with
      | none => exact ⟨_, _, rfl⟩
      | some msg =>
          obtain ⟨c, transId⟩ := msg
          obtain ⟨d, hopcount, hd, hcount, hdel⟩ := h.chunk source c transId rfl
          obtain ⟨⟨o', res, ws⟩, hdel⟩ := hdel o hout
          obtain ⟨measure, hreg⟩ := regChunkReceive_total hm d
          simp only [ChunkTrader.chunkTraderParseChunk, hd, Eval.ok_bind, Eval.pure_eq_ok,
            ChunkTrader.chunkTraderAddChunk_total _ hcount]
          by_cases hacc : (ChunkBuffer.addChunk ps.trader.cb d).2 < 0
          · simp only [if_pos hacc, neg_eq_zero, one_ne_zero, if_false]
            exact ⟨_, _, rfl⟩
          · simp only [if_neg hacc, if_true, hreg, hdel, Eval.ok_bind]
            exact ⟨_, _, rfl⟩

variable [ChunkIDSet C] [LawfulChunkIDSet C] [ExactChunkIDSet C]

/-- An offer whose ids are not negative can be sorted by counting. -/
lemma chunkTraderHandleOffer_total (clk : Clock) (ct : ChunkTrader B ι) (p : ι) {cset : C}
    (maxDeliver : ℤ) (hne : ChunkIDSet.ids cset ≠ [])
    (hids : ∀ i ∈ ChunkIDSet.ids cset, 0 ≤ i ∧ i < INT_MAX) :
    ∃ sel, ct.chunkTraderHandleOffer clk p cset maxDeliver = .ok sel := by
  obtain ⟨hmin₀, hmin⟩ := hids _ (ExactChunkIDSet.getEarliest_mem cset hne)
  obtain ⟨hmax₀, hmax⟩ := hids _ (ExactChunkIDSet.getLatest_mem cset hne)
  have hle := LawfulChunkIDSet.getEarliest_le cset _ (ExactChunkIDSet.getLatest_mem cset hne)
  have hINT : INT_MIN ≤ 0 := by decide
  have hcount : ∀ cid ∈ ChunkIDSet.ids cset, 0 ≤ cid - ChunkIDSet.getEarliest cset
      ∧ cid - ChunkIDSet.getEarliest cset
        < ChunkIDSet.getLatest cset - ChunkIDSet.getEarliest cset + 1 := by
    intro cid hcid
    have hlo := LawfulChunkIDSet.getEarliest_le cset cid hcid
    have hhi := LawfulChunkIDSet.le_getLatest cset cid hcid
    omega
  simp only [ChunkTrader.chunkTraderHandleOffer]
  rw [cint_ok (by omega) (by omega)]
  simp only [Eval.ok_bind]
  rw [cint_ok (by omega) (by omega)]
  simp only [Eval.ok_bind, countIds, if_pos hcount]
  exact ⟨_, rfl⟩

variable [LawfulChunkBuffer B] [DecidableEq ι] [PeerSet ι S] [LawfulPeerSet ι S]

lemma chunkTraderMsgParse_total {sig : Option (Signal C)} (now : ℤ)
    (ht : TopologyInv ps.topology) (h : Handleable ps (.signalling source sig)) :
    ∃ ps' sent, ps.chunkTraderMsgParse clk source sig now = .ok (ps', sent)
      ∧ TopologyInv ps'.topology := by
  obtain ⟨t₁, p, told, hlook, hinv, hp, -⟩ := Topology.nodeidToPeer_inv ht source false now
  simp only [PsInstance.chunkTraderMsgParse, hlook, Eval.ok_bind]
  cases p with
  | none => exact ⟨_, _, rfl, ht⟩
  | some p =>
      have hmem := (Topology.mem_of_topologyGetPeer hp).1
      -- looking a peer up without registering it changes nothing
      have hsame : t₁ = ps.topology := by
        simp only [Topology.nodeidToPeer, Bool.false_eq_true, and_false, if_false, Eval.pure_eq_ok,
          Except.ok.injEq, Prod.mk.injEq] at hlook
        exact hlook.1.symm
      subst hsame
      cases sig with
      | none => exact ⟨_, _, rfl, ht⟩
      | some sig =>
          cases sig with
          | bufferMap =>
              obtain ⟨heap, hstamp, hinv'⟩ := Topology.peerSetBmapTimestamp_inv ht hmem now
              simp only [hstamp, Eval.ok_bind]
              exact ⟨_, _, rfl, hinv'⟩
          | offer cset maxDeliver transId =>
              obtain ⟨t₂, q, told', hlook', hinv', hq, hreg⟩ :=
                Topology.nodeidToPeer_inv ht source true now
              obtain ⟨hne, hids⟩ := h.offer source cset maxDeliver transId rfl
              obtain ⟨sel, hsel⟩ :=
                chunkTraderHandleOffer_total clk ps.trader source maxDeliver hne hids
              cases q with
              | none => exact absurd rfl (hreg rfl)
              | some q =>
                  obtain ⟨heap, hstamp, hinv''⟩ := Topology.peerSetBmapTimestamp_inv hinv'
                    (Topology.mem_of_topologyGetPeer hq).1 now
                  simp only [hlook', hstamp, hsel, Eval.ok_bind]
                  exact ⟨_, _, rfl, hinv''⟩
          | accept cset transId =>
              obtain ⟨ct', chunks, haccept, -⟩ :=
                handleAccept_eq clk ps.trader source cset transId
              simp only [haccept, Eval.ok_bind]
              exact ⟨_, _, rfl, ht⟩
          | ack transId =>
              obtain ⟨heap, hstamp, hinv'⟩ := Topology.peerSetBmapTimestamp_inv ht hmem now
              simp only [hstamp, Eval.ok_bind]
              exact ⟨_, _, rfl, hinv'⟩

/-- **A message** that can be handled. -/
lemma psinstanceHandleMsg_total (now : ℤ) (h : Healthy ps) (hmsg : Handleable ps received) :
    ∃ ps' sent, ps.psinstanceHandleMsg clk received now = .ok (ps', sent) ∧ Healthy ps' := by
  have htotal : ∃ ps' sent, ps.psinstanceHandleMsg clk received now = .ok (ps', sent)
      ∧ TopologyInv ps'.topology := by
    cases received with
    | neighbourhood source type m =>
        obtain ⟨t, told, hhandle, hinv⟩ :=
          Topology.handleNeighbourhoodMessage_inv h.topology source type m now
        simp only [PsInstance.psinstanceHandleMsg, hhandle, Eval.ok_bind]
        exact ⟨_, _, rfl, hinv⟩
    | chunk source msg =>
        obtain ⟨ps', sent, hhandle⟩ := handleChunk_total h.measure hmsg
        refine ⟨ps', sent, hhandle, ?_⟩
        rw [handleChunk_topology hhandle]
        exact h.topology
    | signalling source sig => exact chunkTraderMsgParse_total now h.topology hmsg
    | nothing | sampler | unknown => exact ⟨_, _, rfl, h.topology⟩
  obtain ⟨ps', sent, hhandle, hinv⟩ := htotal
  have hkept := PsInstance.psinstanceHandleMsg_kept hhandle
  exact ⟨ps', sent, hhandle, healthy_of_config h hinv hkept.measure hkept.config⟩

/-- **What is done in a round.** -/
lemma act_total (clk : Clock) (u : PollInput C ι) (action : StreamingAction) (h : Healthy ps)
    (hmsg : Handleable ps u.received)
    (hpush : ∀ c, u.newChunk = some c → Injectable u.pushed c) :
    ∃ ps' sent, ps.act clk u action = .ok (ps', sent) ∧ Healthy ps' := by
  cases action with
  | offer =>
      have hconfig := ps.trader.chunkTraderSendOffer_config (C := C) clk u.picks
      have hsent : Healthy { ps with
          trader := (ps.trader.chunkTraderSendOffer (C := C) clk u.picks).1 } :=
        healthy_of_config h h.topology id hconfig
      obtain ⟨⟨interval, hinterval, -⟩, -⟩ := (PsInstance.offerInterval_iff hsent.measure
        hsent.period).mpr (Or.inl hsent.uniform : PsInstance.Weighable ps.topology _)
      simp only [PsInstance.act, hinterval, Eval.ok_bind]
      exact ⟨_, _, rfl, h.topology, h.measure, hsent.period, hsent.uniform⟩
  | inject =>
      obtain ⟨ps₁, sent, hinject⟩ := psinstanceInjectChunk_total C ps u.interval hpush
      have hkept := PsInstance.psinstanceInjectChunk_kept hinject
      have hinv : TopologyInv ps₁.topology := by
        rw [psinstanceInjectChunk_topology hinject]
        exact h.topology
      have h₁ := healthy_of_config h hinv hkept.measure hkept.config
      simp only [PsInstance.act, hinject, Eval.ok_bind]
      exact ⟨_, _, rfl, h₁.topology, h₁.measure, h₁.period, h₁.uniform⟩
  | parseMsg => exact psinstanceHandleMsg_total u.now h hmsg
  | noAction => exact ⟨ps, [], rfl, h⟩

/-- **One round** of an instance. -/
theorem psinstancePoll_total (clk : Clock) (u : PollInput C ι) (h : Healthy ps)
    (hmsg : Handleable ps u.received)
    (hpush : ∀ c, u.newChunk = some c → Injectable u.pushed c) :
    ∃ ps' sent, ps.psinstancePoll clk u = .ok (ps', sent) ∧ Healthy ps' := by
  have hstart : Healthy { ps with
      timers := ((ps.waiting u).stateHandler u.dataState ps.isSource u.currentEpoch).1 } :=
    ⟨h.topology, h.measure, h.period, h.uniform⟩
  obtain ⟨ps₁, sent, hact, h₁⟩ := act_total clk u
    ((ps.waiting u).stateHandler u.dataState ps.isSource u.currentEpoch).2 hstart
    ⟨hmsg.chunk, hmsg.offer⟩ hpush
  simp only [PsInstance.psinstancePoll, hact, Eval.ok_bind]
  split_ifs with hflag
  · obtain ⟨-, t, told, -, hupdate, hinv, -⟩ := Topology.topologyUpdate_inv h₁.topology u.update
    simp only [hupdate, Eval.ok_bind]
    exact ⟨_, _, rfl, hinv, h₁.measure, h₁.period, h₁.uniform⟩
  · exact ⟨_, _, rfl, h₁.topology, h₁.measure, h₁.period, h₁.uniform⟩

/-! ## What is configured -/

section Configuration

variable {sent : List (PsEffect C ι)}

omit [LawfulChunkIDSet C] [ExactChunkIDSet C] [LawfulChunkBuffer B] [LawfulPeerSet ι S]

lemma chunkTraderMsgParse_configuration {sig : Option (Signal C)} {now : ℤ}
    (h : ps.chunkTraderMsgParse clk source sig now = .ok (ps', sent)) :
    ps'.topology.configuration = ps.topology.configuration := by
  simp only [PsInstance.chunkTraderMsgParse, Eval.bind_eq_ok] at h
  obtain ⟨⟨topology, p, told⟩, hlook, h⟩ := h
  have hfound := Topology.nodeidToPeer_configuration hlook
  cases p with
  | none =>
      cases h
      rfl
  | some p =>
      cases sig with
      | none =>
          cases h
          rfl
      | some sig =>
          cases sig with
          | bufferMap =>
              simp only [Eval.bind_eq_ok, Eval.pure_eq_ok, Except.ok.injEq, Prod.mk.injEq] at h
              obtain ⟨t, hstamp, rfl, -⟩ := h
              exact (Topology.peerSetBmapTimestamp_configuration hstamp).trans hfound
          | offer cset maxDeliver transId =>
              simp only [Eval.bind_eq_ok] at h
              obtain ⟨⟨t, p', told'⟩, hlook', h⟩ := h
              have hadded := Topology.nodeidToPeer_configuration hlook'
              cases p' with
              | none => cases h
              | some p' =>
                  simp only [Eval.bind_eq_ok, Eval.pure_eq_ok, Except.ok.injEq,
                    Prod.mk.injEq] at h
                  obtain ⟨t', hstamp, -, -, rfl, -⟩ := h
                  exact ((Topology.peerSetBmapTimestamp_configuration hstamp).trans hadded).trans
                    hfound
          | accept cset transId =>
              simp only [Eval.bind_eq_ok, Eval.pure_eq_ok, Except.ok.injEq, Prod.mk.injEq] at h
              obtain ⟨-, -, rfl, -⟩ := h
              rfl
          | ack transId =>
              simp only [Eval.bind_eq_ok, Eval.pure_eq_ok, Except.ok.injEq, Prod.mk.injEq] at h
              obtain ⟨t, hstamp, rfl, -⟩ := h
              exact (Topology.peerSetBmapTimestamp_configuration hstamp).trans hfound

lemma psinstanceHandleMsg_configuration {now : ℤ}
    (h : ps.psinstanceHandleMsg clk received now = .ok (ps', sent)) :
    ps'.topology.configuration = ps.topology.configuration := by
  cases received with
  | neighbourhood source type m =>
      simp only [PsInstance.psinstanceHandleMsg, Eval.bind_eq_ok, Eval.pure_eq_ok,
        Except.ok.injEq, Prod.mk.injEq] at h
      obtain ⟨⟨t, told⟩, hhandle, rfl, -⟩ := h
      exact Topology.handleNeighbourhoodMessage_configuration hhandle
  | chunk source msg => exact congrArg Topology.configuration (handleChunk_topology h)
  | signalling source sig => exact chunkTraderMsgParse_configuration h
  | nothing | sampler | unknown =>
      cases h
      rfl

lemma act_configuration {action : StreamingAction} (h : ps.act clk u action = .ok (ps', sent)) :
    ps'.topology.configuration = ps.topology.configuration := by
  cases action with
  | offer =>
      simp only [PsInstance.act, Eval.bind_eq_ok, Eval.pure_eq_ok, Except.ok.injEq,
        Prod.mk.injEq] at h
      obtain ⟨interval, -, rfl, -⟩ := h
      rfl
  | inject =>
      simp only [PsInstance.act, Eval.bind_eq_ok, Eval.pure_eq_ok, Except.ok.injEq,
        Prod.mk.injEq] at h
      obtain ⟨⟨ps₁, sent₁⟩, hinject, rfl, -⟩ := h
      have hsame : ps₁.topology = ps.topology := psinstanceInjectChunk_topology hinject
      exact congrArg Topology.configuration hsame
  | parseMsg => exact psinstanceHandleMsg_configuration h
  | noAction =>
      cases h
      rfl

/-- A round does not change the configuration of the topology. -/
lemma psinstancePoll_configuration (h : ps.psinstancePoll clk u = .ok (ps', sent)) :
    ps'.topology.configuration = ps.topology.configuration := by
  simp only [PsInstance.psinstancePoll, Eval.bind_eq_ok] at h
  obtain ⟨⟨ps₁, sent₁⟩, hact, h⟩ := h
  -- the timers are no matter
  have hsame := act_configuration hact
  change ps₁.topology.configuration = ps.topology.configuration at hsame
  dsimp only at h
  split_ifs at h
  · simp only [Eval.bind_eq_ok, Eval.pure_eq_ok, Except.ok.injEq, Prod.mk.injEq] at h
    obtain ⟨⟨t, told⟩, hupdate, rfl, -⟩ := h
    exact (Topology.topologyUpdate_configuration hupdate).trans hsame
  · cases h
    exact hsame

end Configuration

end Instance

/-! ## The swarm -/

section Swarm

variable [ChunkBuffer B] [ChunkIDSet C] [DecidableEq ι] {cfg : ι → InstanceConfig B ι}
  {clk : ι → Clock} {s s' : Swarm B C S ι} {r : SwarmRound C ι} {out : List (PsEffect C ι)}

/-- What a round needs from outside: ids are left, the scheduler picks chunks of the buffer and
pushes the new one, and `chunkise` does as it promises. -/
structure Scheduled (s : Swarm B C S ι) (r : SwarmRound C ι) : Prop where
  ids : ∀ n, (s.nodes n).input.id + 2 ^ 16 < INT_MAX
  picks : ∀ j, ∀ pair ∈ r.u.picks j, pair.2 ∈ bufferIds (s.nodes r.node).ps.trader.cb
  pushed : ∀ pair ∈ r.u.pushed, pair.2 = (s.nodes r.node).input.id
  chunkised : r.chunkised.Documented

/-- What the swarm keeps: besides what is known of its chunks, its instances are healthy and drop
inactive neighbours only if they are configured to, and the ids that are offered have been given
out. -/
structure Safe [PeerSet ι S] (cfg : ι → InstanceConfig B ι) (s : Swarm B C S ι) : Prop where
  genuine : Genuine cfg s
  numbered : Numbered s
  viewed : Viewed cfg s
  healthy : ∀ n, Healthy (ι := ι) (s.nodes n).ps
  timeout : ∀ n, (s.nodes n).ps.topology.toutBmap = (cfg n).peerTimeout * 1000000
  offers : ∀ m dst cset maxDeliver transId,
    (m, .trader (.offer dst cset maxDeliver transId)) ∈ s.sent →
    ChunkIDSet.ids cset ≠ [] ∧ ∀ i ∈ ChunkIDSet.ids cset, 0 ≤ i ∧ ∃ n, i < (s.nodes n).input.id

variable [PeerSet ι S]

/-- **Before the first round.** -/
lemma swarmCreate_safe [LawfulPeerSet ι S]
    (hempty : ∀ n, ChunkBuffer.getChunks (cfg n).cb = [])
    (hlength : ∀ n, (cfg n).outbuffReorder ≠ 0 →
      1 ≤ (outputCreate (cfg n).outbuffSize (cfg n).outbuffReorder (cfg n).memory).buffLength)
    (hperiod : ∀ n, 1 ≤ (cfg n).offerPerPeriod) (huniform : ∀ n, (cfg n).distType = .uniform) :
    Safe cfg (swarmCreate cfg : Swarm B C S ι) := by
  obtain ⟨hnum, hview⟩ := swarmCreate_viewed (S := S) (C := C) hlength
  refine ⟨swarmCreate_genuine hempty, hnum, hview, fun n => ?_, fun n => ?_,
    fun _ _ _ _ _ h => absurd h List.not_mem_nil⟩
  · have hinit := Topology.topologyInit_inv (S := S) (cfg n).neighbourhoodSize
      (cfg n).peerTimeout 0
    have hloading : measuresCreate.state ≠ .ready := by simp [measuresCreate]
    simp only [swarmCreate, InstanceConfig.create]
    cases (cfg n).server with
    | none => exact ⟨hinit, hloading, hperiod n, huniform n⟩
    | some srv =>
        have hinsert := Topology.topologyNodeInsert_inv hinit srv (cfg n).now.toUsec
        exact ⟨hinsert, hloading, hperiod n, huniform n⟩
  · simp only [swarmCreate, InstanceConfig.create]
    cases (cfg n).server with
    | none => rfl
    | some srv =>
        exact Topology.toutBmap_eq Topology.topologyNodeInsert_configuration

/-- An offer of what the scheduler picks. -/
lemma Safe.picked [LawfulChunkIDSet C] (h : Safe cfg s) (hr : Scheduled s r) {j : ℕ}
    (hne : r.u.picks j ≠ []) {cset : C}
    (hcset : cset = chunkIDSetAddAll ChunkIDSet.init ((r.u.picks j).map Prod.snd)) :
    ChunkIDSet.ids cset ≠ []
      ∧ ∀ i ∈ ChunkIDSet.ids cset, 0 ≤ i ∧ ∃ n, i < (s.nodes n).input.id := by
  have hmem : ∀ i, i ∈ ChunkIDSet.ids cset ↔ i ∈ (r.u.picks j).map Prod.snd := by
    intro i
    rw [hcset, mem_chunkIDSetAddAll, LawfulChunkIDSet.ids_init]
    simp
  refine ⟨fun hnil => ?_, fun i hi => ?_⟩
  · obtain ⟨pair, picked, hpick⟩ := List.exists_cons_of_ne_nil hne
    have hpair : pair.2 ∈ ChunkIDSet.ids cset := (hmem _).mpr (by rw [hpick]; simp)
    rw [hnil] at hpair
    exact absurd hpair List.not_mem_nil
  · obtain ⟨pair, hpair, rfl⟩ := List.mem_map.mp ((hmem i).mp hi)
    obtain ⟨c, hc, hid⟩ := List.mem_map.mp (hr.picks j pair hpair)
    obtain ⟨m, c₀, -, -, h₀, hlt, -⟩ :=
      h.numbered.of_has h.genuine (h.genuine.relayed.held r.node c hc)
    exact ⟨hid ▸ h₀, m, hid ▸ hlt⟩

/-- **What is received can be handled.** -/
lemma Safe.handleable (h : Safe cfg s) (hids : ∀ n, (s.nodes n).input.id + 2 ^ 16 < INT_MAX)
    (n : ι) (arrived : Option ℕ) : Handleable (s.nodes n).ps (s.received n arrived) := by
  refine ⟨fun source c transId hc => ?_, fun source cset maxDeliver transId hoffer => ?_⟩
  · have hsent := received_chunk hc
    obtain ⟨c₀, k, hreached⟩ := h.genuine.relayed.sent source n c ⟨transId, hsent⟩
    have harrives := arrives_hopBytes c₀ k
    rw [← h.genuine.eq_of_reached hreached] at harrives
    refine ⟨_, _, harrives, chunkAttributesGetHopcount_hopBytes rfl, fun o ho => ?_⟩
    obtain ⟨m, -, -, -, h₀, hlt, hsize⟩ := h.numbered.of_has h.genuine (n := n)
      ⟨c₀, k + 1, hreached.hop ⟨transId, hsent⟩ harrives⟩
    have hshows := h.viewed.shows n
    rw [ho, Shows] at hshows
    split_ifs at hshows with hreorder
    · obtain ⟨cs, rs, hring, -, -⟩ := hshows
      have hshort := hring.inv.short
      have hroom := hids m
      obtain ⟨o', rep, hstep, -, -⟩ := hring.step h₀ (by omega) hsize
      rw [deliverStep, Eval.bind_eq_ok] at hstep
      obtain ⟨res, hdel, -⟩ := hstep
      exact ⟨res, hdel⟩
    · exact ⟨_, by rw [outputDeliver, if_neg hreorder]; rfl⟩
  · obtain ⟨hne, hall⟩ := h.offers source n cset maxDeliver transId (received_offer hoffer)
    refine ⟨hne, fun i hi => ?_⟩
    obtain ⟨h₀, m, hlt⟩ := hall i hi
    have hroom := hids m
    exact ⟨h₀, by omega⟩

variable [LawfulChunkBuffer B] [LawfulChunkIDSet C] [ExactChunkIDSet C] [LawfulPeerSet ι S]

/-- The round of the swarm can be made, its node stays healthy, and its configuration as it was. -/
lemma Safe.progress (clk : ι → Clock) (h : Safe cfg s) (hr : Scheduled s r) :
    ∃ s' out, swarmStep clk s r = .ok (s', out) ∧ ∀ n, Healthy (ι := ι) (s'.nodes n).ps
      ∧ (s'.nodes n).ps.topology.toutBmap = (cfg n).peerTimeout * 1000000 := by
  have hput : ∀ node new (sent : List (PsEffect C ι)), Healthy (ι := ι) node.ps →
      node.ps.topology.toutBmap = (s.nodes r.node).ps.topology.toutBmap →
      ∀ n, Healthy (ι := ι) ((s.advance r.node node new sent).nodes n).ps
        ∧ ((s.advance r.node node new sent).nodes n).ps.topology.toutBmap
          = (cfg n).peerTimeout * 1000000 := by
    intro node new sent hnode hsame n
    by_cases hn : n = r.node
    · rw [hn, advance_self]
      exact ⟨hnode, hsame.trans (h.timeout r.node)⟩
    · rw [advance_of_ne hn]
      exact ⟨h.healthy n, h.timeout n⟩
  rw [swarmStep]
  dsimp only
  split_ifs with hrun
  · have hroom := hr.ids r.node
    have hask : ∃ asked, (s.nodes r.node).ask r = .ok asked := by
      rw [SwarmNode.ask]
      split_ifs
      · exact InputDesc.inputChunk_total (h.numbered.ids r.node) (by omega) _ _
      · exact ⟨_, rfl⟩
    obtain ⟨asked, hask⟩ := hask
    rw [hask]
    cases asked with
    | none => exact ⟨_, _, rfl, hput _ _ _ (h.healthy r.node) rfl⟩
    | some asked =>
        obtain ⟨input, new, interval⟩ := asked
        have hpush : ∀ c, new = some c → Injectable r.u.pushed c := by
          intro c hc
          rcases ask_cases hask with ⟨-, hnone⟩ | ⟨-, hgiven⟩
          · rw [hnone] at hc
            cases hc
          · obtain ⟨hid, -, hattributes⟩ := hgiven.chunk c hc
            exact ⟨⟨_, chunkAttributesGetHopcount_hopBytes (k := 0) hattributes⟩,
              fun pair hpair => by rw [hr.pushed pair hpair, hid]⟩
        obtain ⟨ps, sent, hpoll, hps⟩ := psinstancePoll_total (clk r.node)
          { r.u with received := s.received r.node r.arrived, newChunk := new, interval }
          (h.healthy r.node) (h.handleable hr.ids r.node r.arrived) hpush
        have hsame := Topology.toutBmap_eq (psinstancePoll_configuration hpoll)
        simp only [Eval.ok_bind, hpoll]
        exact ⟨_, _, rfl, hput _ _ _ hps hsame⟩
  · exact ⟨_, _, rfl, fun n => ⟨h.healthy n, h.timeout n⟩⟩

variable [StoringChunkBuffer B]

/-- **One round** of the swarm. -/
theorem Safe.step (h : Safe cfg s) (hr : Scheduled s r) :
    ∃ s' out, swarmStep clk s r = .ok (s', out) ∧ Safe cfg s' := by
  obtain ⟨s', out, hstep, hhealthy⟩ := h.progress clk hr
  refine ⟨s', out, hstep, ?_⟩
  have hg := h.genuine.step hstep
  obtain ⟨node, new, rfl, hadv⟩ := swarmStep_advance hstep
  have hinput := hadv.input_id hr.chunkised
  have hnum := h.numbered.step hr.chunkised hadv
  have hfits : (s.advance r.node node new out).Fits := fun n => by
    have hn := (hinput n).2
    have hroom := hr.ids n
    omega
  refine ⟨hg, hnum, h.viewed.step hg hnum hfits hadv, fun n => (hhealthy n).1,
    fun n => (hhealthy n).2, ?_⟩
  intro m dst cset maxDeliver transId hmem
  have hoffer : ChunkIDSet.ids cset ≠ []
      ∧ ∀ i ∈ ChunkIDSet.ids cset, 0 ≤ i ∧ ∃ n, i < (s.nodes n).input.id := by
    rcases List.mem_append.mp hmem with hmem | hmem
    · exact h.offers m dst cset maxDeliver transId hmem
    · obtain ⟨e, he, hpair⟩ := List.mem_map.mp hmem
      cases hpair
      obtain ⟨j, hne, hcset⟩ := hadv.flow.sends _ he
      exact h.picked hr hne hcset
  refine ⟨hoffer.1, fun i hi => ?_⟩
  obtain ⟨h₀, n, hlt⟩ := hoffer.2 i hi
  exact ⟨h₀, n, hlt.trans_le (hinput n).1⟩

end Swarm

end PeerStreamer
