import PeerStreamer.Foundation.Run
import PeerStreamer.Streaming.PsInstance

/-!
# The offer timer

The interval to the next offer is a quotient whose divisor, for `DIST_TURBO`, is the load of the
neighbourhood: it is zero if there are no neighbours, and it reads the metadata of each, which a
neighbour need not have (`Weighable`).  As long as this is so whenever an offer is made, the timer
for offers only goes forward.
-/

namespace PeerStreamer

variable {B C ID S : Type}

namespace PsInstance

/-! ## The load -/

/-- A peer has metadata. -/
def Described (t : Topology S) (p : Peer ID) : Prop :=
  ∃ d m, t.heap.data p.ref = some d ∧ d.metadata = some m

section Load

variable {t : Topology S} {p : Peer ID}

/-- A peer with metadata has a positive weight. -/
lemma peerEvaluationTurbo_of_described (h : Described t p) :
    ∃ x, peerEvaluationTurbo t p = .ok x ∧ 0 < x := by
  obtain ⟨d, m, hd, hm⟩ := h
  refine ⟨1 / if m.neighSize > 0 then m.neighSize else 1,
    by simp [peerEvaluationTurbo, traderPeerNeighSize, PeerHeap.read, hd, hm], ?_⟩
  split_ifs with hsize
  · exact one_div_pos.mpr (by exact_mod_cast hsize)
  · norm_num

lemma described_of_peerEvaluationTurbo {x : ℚ} (h : peerEvaluationTurbo t p = .ok x) :
    Described t p := by
  rw [peerEvaluationTurbo, traderPeerNeighSize, PeerHeap.read] at h
  cases hd : t.heap.data p.ref with
  | none =>
      rw [hd] at h
      cases h
  | some d =>
      cases hm : d.metadata with
      | none =>
          simp only [hd, Eval.ok_bind, hm] at h
          cases h
      | some m => exact ⟨d, m, hd, hm⟩

/-- The load of peers that all have metadata. -/
lemma offerLoad_of_described {ps : List (Peer ID)} (h : ∀ p ∈ ps, Described t p) :
    ∃ load, offerLoad t ps = .ok load ∧ 0 ≤ load ∧ (ps ≠ [] → 0 < load) := by
  induction ps with
  | nil => exact ⟨0, rfl, le_rfl, fun hne => absurd rfl hne⟩
  | cons p ps ih =>
      obtain ⟨x, hx, hpos⟩ := peerEvaluationTurbo_of_described (h p (by simp))
      obtain ⟨load, hload, hle, -⟩ := ih fun q hq => h q (by simp [hq])
      exact ⟨x + load, by simp [offerLoad, hx, hload], (add_pos_of_pos_of_nonneg hpos hle).le,
        fun _ => add_pos_of_pos_of_nonneg hpos hle⟩

lemma described_of_offerLoad {ps : List (Peer ID)} {load : ℚ} (h : offerLoad t ps = .ok load) :
    ∀ p ∈ ps, Described t p := by
  induction ps generalizing load with
  | nil => simp
  | cons p ps ih =>
      simp only [offerLoad, Eval.bind_eq_ok] at h
      obtain ⟨x, hx, rest, hrest, -⟩ := h
      simpa using ⟨described_of_peerEvaluationTurbo hx, ih hrest⟩

end Load

/-! ## What is kept -/

/-- The timers and the configuration are kept, and the estimate does not become ready. -/
structure Kept (ps ps' : PsInstance B ID S) : Prop where
  timers : ps'.timers = ps.timers
  config : ps'.trader.config = ps.trader.config
  measure : ps.measure.state ≠ .ready → ps'.measure.state ≠ .ready

/-- What holds between two rounds. -/
structure PollInv (ps : PsInstance B ID S) : Prop where
  measure : ps.measure.state ≠ .ready
  period : 1 ≤ ps.trader.offerPerPeriod
  epoch : ps.timers.offerEpoch.Normalised

lemma Kept.pollInv {ps ps' : PsInstance B ID S} (h : Kept ps ps') (hinv : PollInv ps) :
    PollInv ps' where
  measure := h.measure hinv.measure
  period := (ChunkTrader.offerPerPeriod_eq h.config).symm ▸ hinv.period
  epoch := h.timers.symm ▸ hinv.epoch

section Kept

variable {ps ps' : PsInstance B ID S} {sent : List (PsEffect C ID)}

variable [ChunkBuffer B]

lemma psinstanceInjectChunk_kept {newChunk : Option Chunk} {interval : ℤ} {pairs : List (ID × ℤ)}
    (h : ps.psinstanceInjectChunk newChunk interval pairs = .ok (ps', sent)) : Kept ps ps' := by
  rw [psinstanceInjectChunk] at h
  split_ifs at h
  · cases newChunk with
    | none =>
        cases h
        exact ⟨rfl, rfl, id⟩
    | some c =>
        rw [Eval.bind_eq_ok] at h
        obtain ⟨⟨trader, res⟩, hadd, h⟩ := h
        obtain ⟨rfl, -⟩ := ChunkTrader.chunkTraderAddChunk_eq hadd
        dsimp only at h
        split_ifs at h
        · simp only [Eval.bind_eq_ok, Eval.pure_eq_ok, Except.ok.injEq, Prod.mk.injEq] at h
          obtain ⟨chunks, -, rfl, -⟩ := h
          exact ⟨rfl, rfl, id⟩
        · cases h
          exact ⟨rfl, rfl, id⟩
  · cases h
    exact ⟨rfl, rfl, id⟩

variable [ChunkIDSet C] {source : ID}

lemma handleChunk_kept {msg : Option (Chunk × UInt16)}
    (h : ps.handleChunk source msg = .ok (ps', sent)) : Kept ps ps' := by
  rw [handleChunk] at h
  cases hout : ps.chunkOut with
  | none =>
      rw [hout] at h
      cases h
      exact ⟨rfl, rfl, id⟩
  | some chunkOut =>
      simp only [hout, Eval.bind_eq_ok] at h
      obtain ⟨⟨trader, c, acks⟩, hparse, h⟩ := h
      have hconfig := ChunkTrader.chunkTraderParseChunk_config hparse
      cases c with
      | none =>
          cases h
          exact ⟨rfl, hconfig, id⟩
      | some c =>
          rw [Eval.bind_eq_ok] at h
          obtain ⟨⟨added, res⟩, hadd, h⟩ := h
          obtain ⟨rfl, -⟩ := ChunkTrader.chunkTraderAddChunk_eq hadd
          dsimp only at h
          split_ifs at h
          · simp only [Eval.bind_eq_ok, Eval.pure_eq_ok, Except.ok.injEq, Prod.mk.injEq] at h
            obtain ⟨measure, hreg, -, -, rfl, -⟩ := h
            exact ⟨rfl, hconfig, fun hm => regChunkReceive_not_ready hm hreg⟩
          · cases h
            exact ⟨rfl, hconfig, id⟩

end Kept

variable [PeerSet ID S]

/-! ## The interval -/

/-- All neighbours can be weighed, and there is one if the weights matter. -/
def Weighable (t : Topology S) (ct : ChunkTrader B ID) : Prop :=
  ct.distType = .uniform
    ∨ getPeers t.neighbourhood ≠ [] ∧ ∀ p ∈ getPeers t.neighbourhood, Described t p

/-- The interval to the next offer is finite and not negative, and the load it is divided by
positive. -/
def OfferIntervalSound (t : Topology S) (ct : ChunkTrader B ID) (measure : ChunkIntervalEstimate) :
    Prop :=
  (∃ interval, chunkTraderOfferInterval t ct measure = .ok interval ∧ 0 ≤ interval)
    ∧ (ct.distType = .turbo → ∃ load, offerLoad t (getPeers t.neighbourhood) = .ok load ∧ 0 < load)

/-- **When the interval is as it should be.** -/
theorem offerInterval_iff {t : Topology S} {ct : ChunkTrader B ID}
    {measure : ChunkIntervalEstimate} (hm : measure.state ≠ .ready) (hper : 1 ≤ ct.offerPerPeriod) :
    OfferIntervalSound t ct measure ↔ Weighable t ct := by
  have hper' : (0 : ℚ) < ct.offerPerPeriod := by exact_mod_cast hper
  -- what is left when the quotient by the load is known
  have hlast : ∀ x : ℚ, 0 ≤ x → ∃ interval : ℤ, (do
      let q ← finiteQuotient x ct.offerPerPeriod
      return if 0 ≤ q then ⌊q⌋ else ⌈q⌉ : Eval ℤ) = .ok interval ∧ 0 ≤ interval := by
    intro x hx
    have hq : 0 ≤ x / ct.offerPerPeriod := div_nonneg hx hper'.le
    exact ⟨⌊x / ct.offerPerPeriod⌋, by simp [finiteQuotient, hper'.ne', hq],
      Int.floor_nonneg.mpr hq⟩
  have hmeasure : (0 : ℚ) ≤ chunkIntervalMeasure measure * (3 / 4) := by
    rw [chunkIntervalMeasure_eq hm]
    norm_num [DEFAULT_CHUNK_INTERVAL]
  cases hd : ct.distType with
  | uniform =>
      refine ⟨fun _ => Or.inl hd, fun _ => ⟨?_, by simp [hd]⟩⟩
      simpa [chunkTraderOfferInterval, hd] using hlast _ hmeasure
  | turbo =>
      constructor
      · rintro ⟨-, hload⟩
        obtain ⟨load, hload, hpos⟩ := hload hd
        refine Or.inr ⟨fun hnil => ?_, described_of_offerLoad hload⟩
        rw [hnil] at hload
        cases hload
        exact absurd hpos (lt_irrefl 0)
      · rintro (hu | ⟨hne, hall⟩)
        · rw [hd] at hu
          cases hu
        · obtain ⟨load, hload, -, hpos⟩ := offerLoad_of_described hall
          have hpos := hpos hne
          refine ⟨?_, fun _ => ⟨load, hload, hpos⟩⟩
          simpa [chunkTraderOfferInterval, hd, hload, finiteQuotient, hpos.ne']
            using hlast _ (div_nonneg hmeasure hpos.le)

/-! ## One round -/

section Round

variable [ChunkBuffer B] [ChunkIDSet C] [DecidableEq ID] {clk : Clock}
  {ps ps' : PsInstance B ID S} {sent : List (PsEffect C ID)} {source : ID} {now : ℤ}

lemma chunkTraderMsgParse_kept {sig : Option (Signal C)}
    (h : ps.chunkTraderMsgParse clk source sig now = .ok (ps', sent)) : Kept ps ps' := by
  simp only [chunkTraderMsgParse, Eval.bind_eq_ok] at h
  obtain ⟨⟨topology, p, told⟩, -, h⟩ := h
  cases p with
  | none =>
      cases h
      exact ⟨rfl, rfl, id⟩
  | some p =>
      cases sig with
      | none =>
          cases h
          exact ⟨rfl, rfl, id⟩
      | some sig =>
          cases sig with
          | bufferMap =>
              simp only [Eval.bind_eq_ok, Eval.pure_eq_ok, Except.ok.injEq, Prod.mk.injEq] at h
              obtain ⟨-, -, rfl, -⟩ := h
              exact ⟨rfl, rfl, id⟩
          | offer cset maxDeliver transId =>
              simp only [Eval.bind_eq_ok] at h
              obtain ⟨⟨topology', p', told'⟩, -, h⟩ := h
              cases p' with
              | none => cases h
              | some p' =>
                  simp only [Eval.bind_eq_ok, Eval.pure_eq_ok, Except.ok.injEq,
                    Prod.mk.injEq] at h
                  obtain ⟨-, -, s, hs, rfl, -⟩ := h
                  exact ⟨rfl, ChunkTrader.chunkTraderHandleOffer_config hs, id⟩
          | accept cset transId =>
              simp only [Eval.bind_eq_ok, Eval.pure_eq_ok, Except.ok.injEq, Prod.mk.injEq] at h
              obtain ⟨⟨trader, chunks⟩, ha, rfl, -⟩ := h
              exact ⟨rfl, ChunkTrader.chunkTraderHandleAccept_config ha, id⟩
          | ack transId =>
              simp only [Eval.bind_eq_ok, Eval.pure_eq_ok, Except.ok.injEq, Prod.mk.injEq] at h
              obtain ⟨-, -, rfl, -⟩ := h
              exact ⟨rfl, rfl, id⟩

/-- **A message** leaves the timers alone. -/
lemma psinstanceHandleMsg_kept {received : PsReceived C ID}
    (h : ps.psinstanceHandleMsg clk received now = .ok (ps', sent)) : Kept ps ps' := by
  cases received with
  | neighbourhood source type m =>
      simp only [psinstanceHandleMsg, Eval.bind_eq_ok, Eval.pure_eq_ok, Except.ok.injEq,
        Prod.mk.injEq] at h
      obtain ⟨-, -, rfl, -⟩ := h
      exact ⟨rfl, rfl, id⟩
  | chunk source msg => exact handleChunk_kept h
  | signalling source sig => exact chunkTraderMsgParse_kept h
  | nothing | sampler | unknown =>
      cases h
      exact ⟨rfl, rfl, id⟩

/-- **What is done in a round** does not put the offer timer back, if the interval is computed only
when it can be. -/
lemma act_pollInv {u : PollInput C ID} {action : StreamingAction} (hinv : PollInv ps)
    (hweigh : action = .offer → Weighable ps.topology ps.trader)
    (h : ps.act clk u action = .ok (ps', sent)) :
    PollInv ps' ∧ ps.timers.offerEpoch.toUsec ≤ ps'.timers.offerEpoch.toUsec := by
  cases action with
  | offer =>
      have hconfig := ps.trader.chunkTraderSendOffer_config (C := C) clk u.picks
      have hper := (ChunkTrader.offerPerPeriod_eq hconfig).symm ▸ hinv.period
      have hweigh' : Weighable ps.topology
          (ps.trader.chunkTraderSendOffer (C := C) clk u.picks).1 := by
        have hdist : (ps.trader.chunkTraderSendOffer (C := C) clk u.picks).1.distType
            = ps.trader.distType := congrArg Prod.fst hconfig
        rw [Weighable, hdist]
        exact hweigh rfl
      obtain ⟨⟨interval, hinterval, hpos⟩, -⟩ :=
        (offerInterval_iff hinv.measure hper).mpr hweigh'
      simp only [act, hinterval, Eval.ok_bind] at h
      cases h
      obtain ⟨hnorm, hadd⟩ := Timeval.timeraddInterval_of_nonneg hinv.epoch hpos
      refine ⟨⟨hinv.measure, hper, hnorm⟩, ?_⟩
      simp only [StreamingTimers.updateOfferTime]
      omega
  | inject =>
      simp only [act, Eval.bind_eq_ok, Eval.pure_eq_ok, Except.ok.injEq, Prod.mk.injEq] at h
      obtain ⟨⟨ps₁, sent₁⟩, hinject, rfl, -⟩ := h
      have hkept := psinstanceInjectChunk_kept hinject
      have hinv₁ := hkept.pollInv hinv
      exact ⟨⟨hinv₁.measure, hinv₁.period, hinv₁.epoch⟩, by
        simp [StreamingTimers.updateChunkTime, hkept.timers]⟩
  | parseMsg =>
      have hkept := psinstanceHandleMsg_kept h
      exact ⟨hkept.pollInv hinv, by rw [hkept.timers]⟩
  | noAction =>
      cases h
      exact ⟨hinv, le_rfl⟩

/-- **One round.** -/
lemma psinstancePoll_pollInv {u : PollInput C ID} (hinv : PollInv ps)
    (hweigh : ps.pollAction u = .offer → Weighable ps.topology ps.trader)
    (h : ps.psinstancePoll clk u = .ok (ps', sent)) :
    PollInv ps' ∧ ps.timers.offerEpoch.toUsec ≤ ps'.timers.offerEpoch.toUsec := by
  simp only [psinstancePoll, Eval.bind_eq_ok] at h
  obtain ⟨⟨ps₁, sent₁⟩, hact, h⟩ := h
  have hstart : PollInv { ps with
      timers := ((ps.waiting u).stateHandler u.dataState ps.isSource u.currentEpoch).1 } :=
    ⟨hinv.measure, hinv.period, hinv.epoch⟩
  obtain ⟨hinv₁, hle⟩ := act_pollInv hstart hweigh hact
  have hflag : ps₁.timers.updateFlag.1.offerEpoch = ps₁.timers.offerEpoch := by
    rw [StreamingTimers.updateFlag]
    split_ifs <;> rfl
  have hend : ps'.timers = ps₁.timers.updateFlag.1 ∧ ps'.trader = ps₁.trader
      ∧ ps'.measure = ps₁.measure := by
    split_ifs at h
    · simp only [Eval.bind_eq_ok, Eval.pure_eq_ok, Except.ok.injEq, Prod.mk.injEq] at h
      obtain ⟨-, -, rfl, -⟩ := h
      exact ⟨rfl, rfl, rfl⟩
    · cases h
      exact ⟨rfl, rfl, rfl⟩
  obtain ⟨htimers, htrader, hmeasure⟩ := hend
  refine ⟨⟨hmeasure ▸ hinv₁.measure, htrader ▸ hinv₁.period, ?_⟩, ?_⟩
  · rw [htimers, hflag]
    exact hinv₁.epoch
  · rw [htimers, hflag]
    exact hle

/-- The interval can be computed whenever it is needed in this round. -/
def OffersWeighable (ps : PsInstance B ID S) (u : PollInput C ID) : Prop :=
  ps.pollAction u = .offer → Weighable ps.topology ps.trader

/-- **The offer timer** in every run from the creation of the instance: as long as every round that
makes an offer can compute the interval, the timer is never put back and stays normalised; and the
interval is as it should be if and only if it can be computed. -/
theorem offer_timer {chunkOut : Option ChunkOutput} {topology : Topology S}
    {trader : ChunkTrader B ID} {noFds : Bool} {start : Timeval} {pre post : List (PollInput C ID)}
    {ps₁ ps₂ : PsInstance B ID S} {outs₁ outs₂ : List (List (PsEffect C ID))}
    (hstart : start.Normalised) (hper : 1 ≤ trader.offerPerPeriod)
    (h₁ : exec (psinstancePoll clk) (psinstanceCreate chunkOut topology trader noFds start) pre
      = .ok (ps₁, outs₁))
    (h₂ : exec (psinstancePoll clk) ps₁ post = .ok (ps₂, outs₂))
    (hweigh₁ : Along (psinstancePoll clk) OffersWeighable
      (psinstanceCreate chunkOut topology trader noFds start) pre)
    (hweigh₂ : Along (psinstancePoll clk) OffersWeighable ps₁ post) :
    ps₁.timers.offerEpoch.toUsec ≤ ps₂.timers.offerEpoch.toUsec
      ∧ ps₂.timers.offerEpoch.Normalised
      ∧ (OfferIntervalSound ps₂.topology ps₂.trader ps₂.measure
        ↔ Weighable ps₂.topology ps₂.trader) := by
  have hcreate : PollInv (psinstanceCreate chunkOut topology trader noFds start) :=
    ⟨by simp [psinstanceCreate, measuresCreate], hper,
      (Timeval.timeraddInterval_of_nonneg hstart (by norm_num)).1⟩
  have hinv₁ : PollInv ps₁ := exec_along h₁ hweigh₁ hcreate
    fun _ _ _ _ hinv hw hstep => (psinstancePoll_pollInv hinv hw hstep).1
  have hinv₂ : PollInv ps₂ ∧ ps₁.timers.offerEpoch.toUsec ≤ ps₂.timers.offerEpoch.toUsec := by
    refine exec_along (J := fun ps => PollInv ps
      ∧ ps₁.timers.offerEpoch.toUsec ≤ ps.timers.offerEpoch.toUsec) h₂ hweigh₂ ⟨hinv₁, le_rfl⟩ ?_
    rintro ps u ps' out ⟨hinv, hle⟩ hw hstep
    obtain ⟨hinv', hle'⟩ := psinstancePoll_pollInv hinv hw hstep
    exact ⟨hinv', hle.trans hle'⟩
  exact ⟨hinv₂.2, hinv₂.1.epoch, offerInterval_iff hinv₂.1.measure hinv₂.1.period⟩

end Round

/-- A peer that has only heard of the node 1, with the distribution type given. -/
def newcomer (distType : DistributionType) : PsInstance ChunkList ℕ (PeerList ℕ) :=
  psinstanceCreate (some (outputCreate 10 0 fun _ => ⟨0, 0, 0, 0, [], []⟩))
    ((Topology.topologyInit 30 10 50).topologyNodeInsert 1 0)
    (chunkTraderCreate ⟨10, []⟩ distType 1 1 1) true ⟨0, 0⟩

/-- Nothing comes until it is time for the first offer. -/
def quietRound : PollInput IDList ℕ where
  delta := 50000
  tnow := ⟨0, 100⟩
  dataState := 0
  currentEpoch := ⟨0, 40001⟩
  received := .nothing
  now := 0
  picks := fun _ => []
  newChunk := none
  interval := 0
  pushed := []
  update := ⟨50, [], 0, 0, fun _ => 0, fun _ => 0⟩

/-- The first offer of a newcomer that distributes uniformly. -/
theorem offer_timer_newcomer :
    ∃ (ps₂ : PsInstance ChunkList ℕ (PeerList ℕ)) (outs₂ : List (List (PsEffect IDList ℕ))),
      exec (psinstancePoll (.ticking 100)) (newcomer .uniform) [quietRound] = .ok (ps₂, outs₂)
      ∧ (newcomer .uniform).timers.offerEpoch.toUsec ≤ ps₂.timers.offerEpoch.toUsec
      ∧ ps₂.timers.offerEpoch.Normalised
      ∧ (OfferIntervalSound ps₂.topology ps₂.trader ps₂.measure
        ↔ Weighable ps₂.topology ps₂.trader) := by
  obtain ⟨⟨ps₂, outs₂⟩, h⟩ := Eval.exists_ok (x := exec (psinstancePoll (.ticking 100))
    (newcomer .uniform) [quietRound]) (by decide +kernel)
  have hstart : (⟨0, 0⟩ : Timeval).Normalised := ⟨le_rfl, by norm_num⟩
  have hweigh : Along (psinstancePoll (.ticking 100)) OffersWeighable (newcomer .uniform)
      [quietRound] := ⟨fun _ => Or.inl rfl, fun _ _ _ => trivial⟩
  exact ⟨ps₂, outs₂, h, offer_timer hstart le_rfl (exec_nil _) h (along_nil _) hweigh⟩

/-- One that weighs its neighbours divides by zero. -/
theorem not_offer_timer :
    (newcomer .turbo).pollAction quietRound = .offer
      ∧ (newcomer .turbo).psinstancePoll (.ticking 100) quietRound = .error .divisionByZero
      ∧ ¬OfferIntervalSound (newcomer .turbo).topology (newcomer .turbo).trader
        (newcomer .turbo).measure := by
  refine ⟨by decide +kernel, rfl, ?_⟩
  rintro ⟨⟨interval, h, -⟩, -⟩
  cases h

end PsInstance

end PeerStreamer
