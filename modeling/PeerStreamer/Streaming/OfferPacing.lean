import PeerStreamer.Foundation.Pacing
import PeerStreamer.Streaming.OfferTimer

/-!
# When offers are made

The timer for offers is set on by the interval from where it stood, not from when the offer is made.
So the offers keep to the schedule that the intervals make from the start of the instance on: they
are never made too early, a late one is made up for by the next ones, and an instance that has
nothing else to do is never behind (`offers_paced`).
-/

namespace PeerStreamer

variable {B C ID S : Type}

namespace StreamingTimers

variable {psl : StreamingTimers} {interval : ℤ} {tnow : Timeval}

/-- **No oversleeping**: one that does not look at the timer for chunks wakes up when the next offer
is due, or before. -/
lemma setTimeout_le (h : psl.offerEpoch.Normalised) (hnow : tnow.Normalised) (hpos : 0 ≤ interval) :
    tnow.toUsec + (psl.setTimeout interval false tnow).sleepTimer.toUsec
      ≤ max tnow.toUsec psl.offerEpoch.toUsec := by
  have hdelta : (Timeval.usec2timeval interval).Normalised := by
    rw [Timeval.usec2timeval_of_nonneg hpos]
    exact ⟨Int.emod_nonneg _ (by norm_num), Int.emod_lt_of_pos _ (by norm_num)⟩
  simp only [setTimeout, Bool.false_and, Bool.false_eq_true, if_false]
  split_ifs with hlate hshort
  · simp [Timeval.toUsec]
  · rw [Timeval.timercmpLt_iff hdelta (Timeval.timersub_normalised h hnow)] at hshort
    rw [Timeval.timersub_toUsec] at hshort
    omega
  · rw [Timeval.timersub_toUsec]
    omega

end StreamingTimers

namespace PsInstance

/-! ## One offer -/

/-- The interval of an instance that distributes uniformly. -/
def uniformInterval (offerPerPeriod : ℤ) : ℤ := 30000 / offerPerPeriod

/-- The offer that a round makes, if it makes one: the time, and the interval until the next one. -/
def offerMade (ps ps' : PsInstance B ID S) (u : PollInput C ID) : List (ℚ × ℚ) :=
  if ps.pollAction u = .offer then [((u.currentEpoch.toUsec : ℚ), (ps'.chunkOfferInterval : ℚ))]
  else []

section Made

variable {ps ps' : PsInstance B ID S} {u : PollInput C ID}

/-- An offer is due when it is made. -/
lemma due_of_offerMade (hinv : PollInv ps) (hnow : u.currentEpoch.Normalised) :
    ∀ x ∈ offerMade ps ps' u, (ps.timers.offerEpoch.toUsec : ℚ) < x.1 := by
  intro x hx
  rw [offerMade] at hx
  split_ifs at hx with hoffer
  · obtain rfl := List.mem_singleton.mp hx
    have hdue : ps.timers.offerEpoch.timercmpLt u.currentEpoch = true := by
      by_contra hdue
      simp only [pollAction, waiting, StreamingTimers.setTimeout, StreamingTimers.action] at hoffer
      split_ifs at hoffer
    have hlt := (Timeval.timercmpLt_iff hinv.epoch hnow).mp hdue
    dsimp only
    exact_mod_cast hlt
  · exact absurd hx List.not_mem_nil

/-- So it is made when all before it have had their time. -/
lemma pacedFrom_offerMade {t₀ sent : ℚ}
    (hdue : ∀ x ∈ offerMade ps ps' u, (ps.timers.offerEpoch.toUsec : ℚ) < x.1)
    (hepoch : (ps.timers.offerEpoch.toUsec : ℚ) = t₀ + sent) :
    PacedFrom 1 t₀ sent (offerMade ps ps' u) := by
  rw [offerMade] at hdue ⊢
  split_ifs at hdue ⊢
  · have hnow := hdue _ (List.mem_singleton_self _)
    refine ⟨?_, trivial⟩
    rw [hepoch] at hnow
    linarith
  · trivial

end Made

variable [PeerSet ID S]

/-- The interval of a uniform distribution is the same every time. -/
lemma offerInterval_uniform {t : Topology S} {ct : ChunkTrader B ID}
    {measure : ChunkIntervalEstimate} {interval : ℤ} (hm : measure.state ≠ .ready)
    (hper : 1 ≤ ct.offerPerPeriod) (hdist : ct.distType = .uniform)
    (h : chunkTraderOfferInterval t ct measure = .ok interval) :
    interval = uniformInterval ct.offerPerPeriod := by
  obtain ⟨p, hp⟩ := Int.eq_ofNat_of_zero_le (by omega : 0 ≤ ct.offerPerPeriod)
  have hne : (ct.offerPerPeriod : ℚ) ≠ 0 := by
    have : (0 : ℚ) < ct.offerPerPeriod := by exact_mod_cast hper
    exact this.ne'
  have hpos : (0 : ℚ) ≤ 30000 / ct.offerPerPeriod := by
    have : (0 : ℚ) ≤ ct.offerPerPeriod := by exact_mod_cast (by omega : 0 ≤ ct.offerPerPeriod)
    positivity
  have hms : ((DEFAULT_CHUNK_INTERVAL : ℤ) : ℚ) * (3 / 4) = 30000 := by
    norm_num [DEFAULT_CHUNK_INTERVAL]
  simp only [chunkTraderOfferInterval, chunkIntervalMeasure_eq hm, hms, hdist, finiteQuotient, hne,
    if_false, Eval.pure_eq_ok, Eval.ok_bind, hpos, if_true, Except.ok.injEq] at h
  rw [← h, uniformInterval, hp]
  exact_mod_cast Rat.floor_intCast_div_natCast 30000 p

variable [ChunkBuffer B] [ChunkIDSet C] [DecidableEq ID]

/-! ## The offers of a run -/

/-- The offers of a run, as far as it goes. -/
def offersMade (clk : Clock) : PsInstance B ID S → List (PollInput C ID) → List (ℚ × ℚ)
  | _, [] => []
  | ps, u :: us =>
      match ps.psinstancePoll clk u with
      | .ok (ps', _) => offerMade ps ps' u ++ offersMade clk ps' us
      | .error _ => []

section Round

variable {clk : Clock} {ps ps' : PsInstance B ID S} {u : PollInput C ID}
  {sent : List (PsEffect C ID)}

/-- What a round does to the timer for offers. -/
structure OfferRound (ps ps' : PsInstance B ID S) (u : PollInput C ID) : Prop where
  inv : PollInv ps'
  config : ps'.trader.config = ps.trader.config
  epoch : (ps'.timers.offerEpoch.toUsec : ℚ)
    = ps.timers.offerEpoch.toUsec + totalSize (offerMade ps ps' u)
  pos : ∀ x ∈ offerMade ps ps' u, 0 ≤ x.2
  uniform : ps.trader.distType = .uniform →
    ∀ x ∈ offerMade ps ps' u, x.2 = uniformInterval ps.trader.offerPerPeriod

lemma totalSize_singleton (x : ℚ × ℚ) : totalSize [x] = x.2 := by
  rw [totalSize_cons, totalSize_nil, add_zero]

/-- **An offer** puts the timer on by its interval. -/
lemma act_offer (hinv : PollInv ps) (hweigh : Weighable ps.topology ps.trader)
    (h : ps.act clk u .offer = .ok (ps', sent)) :
    PollInv ps' ∧ ps'.trader.config = ps.trader.config ∧ 0 ≤ ps'.chunkOfferInterval
      ∧ ps'.timers.offerEpoch.toUsec = ps.timers.offerEpoch.toUsec + ps'.chunkOfferInterval
      ∧ (ps.trader.distType = .uniform →
        ps'.chunkOfferInterval = uniformInterval ps.trader.offerPerPeriod) := by
  have hconfig := ps.trader.chunkTraderSendOffer_config (C := C) clk u.picks
  have hdist : (ps.trader.chunkTraderSendOffer (C := C) clk u.picks).1.distType
      = ps.trader.distType := congrArg Prod.fst hconfig
  have hper := ChunkTrader.offerPerPeriod_eq hconfig
  have hone := hinv.period
  rw [← hper] at hone ⊢
  have hsound := (offerInterval_iff hinv.measure hone).mpr
    (by rwa [Weighable, hdist] : Weighable ps.topology _)
  obtain ⟨⟨interval, hinterval, hpos⟩, -⟩ := hsound
  simp only [act, hinterval, Eval.ok_bind] at h
  cases h
  obtain ⟨hnorm, hadd⟩ := Timeval.timeraddInterval_of_nonneg hinv.epoch hpos
  exact ⟨⟨hinv.measure, hone, hnorm⟩, hconfig, hpos, hadd, fun hu =>
    offerInterval_uniform hinv.measure hone (hdist.trans hu) hinterval⟩

/-- Nothing else touches it. -/
lemma act_of_ne_offer {action : StreamingAction} (hne : action ≠ .offer) (hinv : PollInv ps)
    (h : ps.act clk u action = .ok (ps', sent)) :
    PollInv ps' ∧ ps'.trader.config = ps.trader.config
      ∧ ps'.timers.offerEpoch = ps.timers.offerEpoch := by
  cases action with
  | offer => exact absurd rfl hne
  | inject =>
      simp only [act, Eval.bind_eq_ok, Eval.pure_eq_ok, Except.ok.injEq, Prod.mk.injEq] at h
      obtain ⟨⟨ps₁, sent₁⟩, hinject, rfl, -⟩ := h
      have hkept := psinstanceInjectChunk_kept hinject
      have hinv₁ := hkept.pollInv hinv
      refine ⟨⟨hinv₁.measure, hinv₁.period, hinv₁.epoch⟩, hkept.config, ?_⟩
      simp [StreamingTimers.updateChunkTime, hkept.timers]
  | parseMsg =>
      have hkept := psinstanceHandleMsg_kept h
      exact ⟨hkept.pollInv hinv, hkept.config, by rw [hkept.timers]⟩
  | noAction =>
      cases h
      exact ⟨hinv, rfl, rfl⟩

/-- **One round.** -/
lemma psinstancePoll_offerRound (hinv : PollInv ps) (hweigh : OffersWeighable ps u)
    (h : ps.psinstancePoll clk u = .ok (ps', sent)) : OfferRound ps ps' u := by
  simp only [psinstancePoll, Eval.bind_eq_ok] at h
  obtain ⟨⟨ps₁, sent₁⟩, hact, h⟩ := h
  have hstart : PollInv { ps with
      timers := ((ps.waiting u).stateHandler u.dataState ps.isSource u.currentEpoch).1 } :=
    ⟨hinv.measure, hinv.period, hinv.epoch⟩
  have hflag : ps₁.timers.updateFlag.1.offerEpoch = ps₁.timers.offerEpoch := by
    rw [StreamingTimers.updateFlag]
    split_ifs <;> rfl
  obtain ⟨htimers, htrader, hmeasure, hinterval⟩ : ps'.timers = ps₁.timers.updateFlag.1
      ∧ ps'.trader = ps₁.trader ∧ ps'.measure = ps₁.measure
      ∧ ps'.chunkOfferInterval = ps₁.chunkOfferInterval := by
    split_ifs at h
    · simp only [Eval.bind_eq_ok, Eval.pure_eq_ok, Except.ok.injEq, Prod.mk.injEq] at h
      obtain ⟨-, -, rfl, -⟩ := h
      exact ⟨rfl, rfl, rfl, rfl⟩
    · cases h
      exact ⟨rfl, rfl, rfl, rfl⟩
  have hepoch : ps'.timers.offerEpoch = ps₁.timers.offerEpoch := by rw [htimers, hflag]
  have hend : PollInv ps₁ → PollInv ps' := fun h₁ =>
    ⟨hmeasure ▸ h₁.measure, htrader ▸ h₁.period, hepoch ▸ h₁.epoch⟩
  by_cases hoffer : ps.pollAction u = .offer
  · have hmade : offerMade ps ps' u
        = [((u.currentEpoch.toUsec : ℚ), (ps₁.chunkOfferInterval : ℚ))] := by
      rw [offerMade, if_pos hoffer, hinterval]
    have hact' : { ps with timers := ((ps.waiting u).stateHandler u.dataState ps.isSource
        u.currentEpoch).1 }.act clk u .offer = .ok (ps₁, sent₁) := hoffer ▸ hact
    obtain ⟨h₁, hconfig, hpos, hadd, huniform⟩ := act_offer hstart (hweigh hoffer) hact'
    refine ⟨hend h₁, htrader ▸ hconfig, ?_, ?_, fun hu => ?_⟩
    · rw [hmade, totalSize_singleton, hepoch, hadd]
      push_cast
      rfl
    · rw [hmade]
      simpa using hpos
    · rw [hmade]
      simp [huniform hu]
  · have hmade : offerMade ps ps' u = [] := by rw [offerMade, if_neg hoffer]
    obtain ⟨h₁, hconfig, hsame⟩ := act_of_ne_offer hoffer hstart hact
    refine ⟨hend h₁, htrader ▸ hconfig, ?_, by simp [hmade], by simp [hmade]⟩
    rw [hmade, totalSize_nil, add_zero, hepoch, hsame]
    rfl

end Round

/-! ## A run -/

section Run

variable {clk : Clock} {ps ps' : PsInstance B ID S} {us : List (PollInput C ID)}
  {outs : List (List (PsEffect C ID))}

/-- The times of the offers are times of rounds, in the same order. -/
lemma offersMade_times (clk : Clock) (ps : PsInstance B ID S) (us : List (PollInput C ID)) :
    ((offersMade clk ps us).map Prod.fst).Sublist
      (us.map fun u => (u.currentEpoch.toUsec : ℚ)) := by
  induction us generalizing ps with
  | nil => exact List.Sublist.slnil
  | cons u us ih =>
      rw [offersMade]
      split
      · next ps₁ out _ =>
          rw [List.map_append, List.map_cons, offerMade]
          split_ifs
          · exact (ih ps₁).cons_cons _
          · exact (ih ps₁).cons _
      · exact List.nil_sublist _

/-- What a run does to the timer for offers, if it has been put on by `sent` since `t₀`. -/
structure OfferRun (t₀ sent : ℚ) (ps ps' : PsInstance B ID S) (offers : List (ℚ × ℚ)) : Prop where
  inv : PollInv ps'
  epoch : (ps'.timers.offerEpoch.toUsec : ℚ) = t₀ + (sent + totalSize offers)
  paced : PacedFrom 1 t₀ sent offers
  due : ∀ x ∈ offers, (ps.timers.offerEpoch.toUsec : ℚ) < x.1
  pos : ∀ x ∈ offers, 0 ≤ x.2
  uniform : ps.trader.distType = .uniform →
    ∀ x ∈ offers, x.2 = uniformInterval ps.trader.offerPerPeriod

/-- **A run**, by induction on its rounds: the timer carries what the offers so far have taken. -/
lemma exec_offerRun {t₀ sent : ℚ} (hinv : PollInv ps)
    (hepoch : (ps.timers.offerEpoch.toUsec : ℚ) = t₀ + sent)
    (hnorm : ∀ u ∈ us, u.currentEpoch.Normalised)
    (hweigh : Along (psinstancePoll clk) OffersWeighable ps us)
    (h : exec (psinstancePoll clk) ps us = .ok (ps', outs)) :
    OfferRun t₀ sent ps ps' (offersMade clk ps us) := by
  induction us generalizing ps sent outs with
  | nil =>
      cases h
      exact ⟨hinv, by simpa [offersMade] using hepoch, trivial, by simp [offersMade],
        by simp [offersMade], by simp [offersMade]⟩
  | cons u us ih =>
      obtain ⟨ps₁, out, outs', hstep, hrest, -⟩ := exec_cons_eq_ok.mp h
      have hround := psinstancePoll_offerRound hinv hweigh.1 hstep
      have hdue : ∀ x ∈ offerMade ps ps₁ u, (ps.timers.offerEpoch.toUsec : ℚ) < x.1 :=
        due_of_offerMade hinv (hnorm u List.mem_cons_self)
      have hepoch₁ : (ps₁.timers.offerEpoch.toUsec : ℚ)
          = t₀ + (sent + totalSize (offerMade ps ps₁ u)) := by
        rw [hround.epoch, hepoch, add_assoc]
      have hrun := ih hround.inv hepoch₁ (fun v hv => hnorm v (List.mem_cons_of_mem u hv))
        (hweigh.2 ps₁ out hstep) hrest
      have hmade : offersMade clk ps (u :: us) = offerMade ps ps₁ u ++ offersMade clk ps₁ us := by
        rw [offersMade, hstep]
      rw [hmade]
      have hconfig : ps₁.trader.distType = ps.trader.distType := congrArg Prod.fst hround.config
      have hperiod := ChunkTrader.offerPerPeriod_eq hround.config
      have hlater : (ps.timers.offerEpoch.toUsec : ℚ) ≤ ps₁.timers.offerEpoch.toUsec := by
        rw [hround.epoch]
        exact le_add_of_nonneg_right (totalSize_nonneg hround.pos)
      refine ⟨hrun.inv, ?_, pacedFrom_append.mpr ⟨?_, hrun.paced⟩, ?_, ?_, fun hu => ?_⟩
      · rw [hrun.epoch, totalSize_append]
        ring
      · exact pacedFrom_offerMade hdue hepoch
      · exact List.forall_mem_append.mpr ⟨hdue, fun x hx => hlater.trans_lt (hrun.due x hx)⟩
      · exact List.forall_mem_append.mpr ⟨hround.pos, hrun.pos⟩
      · have huniform := hrun.uniform (hconfig.trans hu)
        rw [hperiod] at huniform
        exact List.forall_mem_append.mpr ⟨hround.uniform hu, huniform⟩

/-- An instance that distributes uniformly can always compute the interval. -/
lemma along_offersWeighable (hinv : PollInv ps) (huniform : ps.trader.distType = .uniform) :
    Along (psinstancePoll clk) OffersWeighable ps us := by
  induction us generalizing ps with
  | nil => trivial
  | cons u us ih =>
      have hnow : OffersWeighable ps u := fun _ => Or.inl huniform
      refine ⟨hnow, fun ps₁ out hstep => ?_⟩
      have hround := psinstancePoll_offerRound hinv hnow hstep
      have hconfig : ps₁.trader.distType = ps.trader.distType := congrArg Prod.fst hround.config
      exact ih hround.inv (hconfig.trans huniform)

/-- The offers of a run keep to the schedule that their intervals make from `t₀` on. -/
structure OffersPaced (ct : ChunkTrader B ID) (t₀ : ℚ) (ps' : PsInstance B ID S)
    (offers : List (ℚ × ℚ)) : Prop where
  /-- They do not come faster than their intervals allow. -/
  rate : RateBounded 1 t₀ offers
  /-- The next one is due when the intervals of all so far are over, however late they were made. -/
  next : (ps'.timers.offerEpoch.toUsec : ℚ) = t₀ + totalSize offers
  /-- For a uniform distribution, this bounds how many there are. -/
  count : ct.distType = .uniform → ∀ t, t₀ ≤ t →
    ((upTo t offers).length * uniformInterval ct.offerPerPeriod : ℚ)
      ≤ (t - t₀) + uniformInterval ct.offerPerPeriod
  /-- A peer to which nothing comes makes the next one if and only if it is due. -/
  due : ps'.isSource = false → ∀ u : PollInput C ID, u.dataState = 0 →
    u.currentEpoch.Normalised →
    (ps'.pollAction u = .offer ↔ t₀ + totalSize offers < u.currentEpoch.toUsec)
  /-- It does not wait for data beyond that. -/
  awake : ps'.isSource = false → ∀ u : PollInput C ID, 0 ≤ u.delta → u.tnow.Normalised →
    (u.tnow.toUsec + (ps'.waiting u).sleepTimer.toUsec : ℚ)
      ≤ max (u.tnow.toUsec : ℚ) (t₀ + totalSize offers)

/-- **The schedule of the offers** in every run from the creation of the instance, whatever it
receives, as long as the clock is not put back and every round that makes an offer can compute the
interval to the next one. -/
theorem offers_paced {chunkOut : Option ChunkOutput} {topology : Topology S}
    {trader : ChunkTrader B ID} {noFds : Bool} {start : Timeval}
    (hstart : start.Normalised) (hper : 1 ≤ trader.offerPerPeriod)
    (hnorm : ∀ u ∈ us, u.currentEpoch.Normalised)
    (hclock : us.Pairwise (·.currentEpoch.toUsec ≤ ·.currentEpoch.toUsec))
    (hweigh : Along (psinstancePoll clk) OffersWeighable
      (psinstanceCreate chunkOut topology trader noFds start) us)
    (h : exec (psinstancePoll clk) (psinstanceCreate chunkOut topology trader noFds start) us
      = .ok (ps', outs)) :
    OffersPaced (C := C) trader (start.toUsec + 40000) ps'
      (offersMade clk (psinstanceCreate chunkOut topology trader noFds start) us) := by
  obtain ⟨hcreated, hfirst⟩ :=
    Timeval.timeraddInterval_of_nonneg hstart (by norm_num : (0 : ℤ) ≤ 1000000 / 25)
  have hinv : PollInv (psinstanceCreate chunkOut topology trader noFds start) :=
    ⟨by simp [psinstanceCreate, measuresCreate], hper, hcreated⟩
  have hepoch : ((psinstanceCreate chunkOut topology trader noFds start).timers.offerEpoch.toUsec
      : ℚ) = (start.toUsec + 40000) + 0 := by
    have hfirst' : (start.timeraddInterval (1000000 / 25)).toUsec = start.toUsec + 40000 := hfirst
    simp only [psinstanceCreate, streamingTimersInit, hfirst']
    push_cast
    ring
  have hrun := exec_offerRun hinv hepoch hnorm hweigh h
  set offers := offersMade clk (psinstanceCreate chunkOut topology trader noFds start) us
  have hsorted : offers.Pairwise (·.1 ≤ ·.1) := by
    have htimes : (us.map fun u => (u.currentEpoch.toUsec : ℚ)).Pairwise (· ≤ ·) :=
      List.pairwise_map.mpr (hclock.imp fun hle => by exact_mod_cast hle)
    exact List.pairwise_map.mp (htimes.sublist (offersMade_times clk _ us))
  have hlater : ∀ x ∈ offers, (start.toUsec + 40000 : ℚ) ≤ x.1 := fun x hx => by
    have hlt := hrun.due x hx
    rw [hepoch, add_zero] at hlt
    exact hlt.le
  have hrate := (rateBounded_iff_paced zero_le_one hsorted hrun.pos hlater).mpr hrun.paced
  have hnext := hrun.epoch
  rw [zero_add] at hnext
  refine ⟨hrate, hnext, fun hu t ht => ?_, fun hpeer u hdata hu => ?_, fun hpeer u hdelta hu => ?_⟩
  · have hpos : (0 : ℚ) ≤ uniformInterval trader.offerPerPeriod := by
      exact_mod_cast Int.ediv_nonneg (by norm_num) (by omega)
    have hcount := hrate.length_le (hrun.uniform hu) hpos ht
    rwa [one_mul] at hcount
  · rw [← hnext]
    have hiff := Timeval.timercmpLt_iff hrun.inv.epoch hu
    rw [Int.cast_lt, ← hiff]
    simp [pollAction, waiting, StreamingTimers.setTimeout, StreamingTimers.action, hdata, hpeer]
  · have hle := StreamingTimers.setTimeout_le hrun.inv.epoch hu hdelta
    rw [← hnext]
    rw [waiting, hpeer, Bool.false_and]
    exact_mod_cast hle

end Run

/-- The newcomer makes its first offer half a second late. -/
def lateRound : PollInput IDList ℕ := { quietRound with currentEpoch := ⟨0, 540001⟩ }

/-- It makes up for it: the next offer is due 30 ms after the first one was, and is made at once. -/
theorem offers_paced_late :
    ∃ (ps' : PsInstance ChunkList ℕ (PeerList ℕ)) (outs : List (List (PsEffect IDList ℕ))),
      exec (psinstancePoll (.ticking 100)) (newcomer .uniform) [lateRound, lateRound]
        = .ok (ps', outs)
      ∧ offersMade (.ticking 100) (newcomer .uniform) [lateRound, lateRound]
        = [(540001, 30000), (540001, 30000)]
      ∧ OffersPaced (C := IDList) (newcomer .uniform).trader ((⟨0, 0⟩ : Timeval).toUsec + 40000) ps'
        (offersMade (.ticking 100) (newcomer .uniform) [lateRound, lateRound]) := by
  obtain ⟨⟨ps', outs⟩, h⟩ := Eval.exists_ok (x := exec (psinstancePoll (.ticking 100))
    (newcomer .uniform) [lateRound, lateRound]) (by decide +kernel)
  have hstart : (⟨0, 0⟩ : Timeval).Normalised := ⟨le_rfl, by norm_num⟩
  have hweigh : Along (psinstancePoll (.ticking 100)) OffersWeighable (newcomer .uniform)
      [lateRound, lateRound] :=
    along_offersWeighable ⟨by decide, le_rfl, by decide⟩ rfl
  refine ⟨ps', outs, h, by decide +kernel, offers_paced hstart le_rfl ?_ (by simp) hweigh h⟩
  simp [lateRound, quietRound, Timeval.Normalised]

end PsInstance

end PeerStreamer
