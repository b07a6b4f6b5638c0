import PeerStreamer.Streaming.Acceptance

/-!
# The exchange of two traders

Trader A offers chunks to trader B, B accepts some of them, and A sends those that it still has.
The offers and accepts on the way are delivered in any order, if at all, and in between both traders
do anything else: chunks arrive and are put into the buffers, others are dropped, and other peers
make offers and send accepts.

A message carries the number of the step it was sent in, so that it can be said which offer an
accept replies to, and which accept has been answered with chunks.
-/

namespace PeerStreamer

variable {B C ID : Type} [ChunkBuffer B]

/-! ## Handling an accept -/

section Accept

variable {cb : B} {p : ID}

/-- The pairs are some of the chunks accepted, in their order, and not too many. -/
lemma acceptedPairs_eq (cb : B) (p : ID) (maxChunks : ℤ) (cids : List ℤ) {pairs : List (ID × ℤ)}
    (hlen : pairs.length ≤ maxChunks.toNat) :
    ∃ l : List ℤ, ChunkTrader.acceptedPairs cb p maxChunks cids pairs = pairs ++ l.map (p, ·)
      ∧ l.Sublist cids ∧ (∀ i ∈ l, (ChunkBuffer.getChunk cb i).isSome)
      ∧ (pairs ++ l.map (p, ·)).length ≤ maxChunks.toNat := by
  induction cids generalizing pairs with
  | nil => exact ⟨[], by simp [ChunkTrader.acceptedPairs], by simp, by simp, by simpa using hlen⟩
  | cons cid cids ih =>
      rw [ChunkTrader.acceptedPairs]
      split_ifs with hroom hget
      · have hlen' : (pairs ++ [(p, cid)]).length ≤ maxChunks.toNat := by
          rw [List.length_append, List.length_singleton]
          omega
        obtain ⟨l, he, hsub, hsome, hle⟩ := ih hlen'
        refine ⟨cid :: l, by simpa using he, hsub.cons_cons cid, ?_, by simpa using hle⟩
        rintro i hi
        rcases List.mem_cons.mp hi with rfl | hi
        · exact hget
        · exact hsome i hi
      · obtain ⟨l, he, hsub, hsome, hle⟩ := ih hlen
        exact ⟨l, he, hsub.cons cid, hsome, hle⟩
      · exact ⟨[], by simp, List.nil_sublist _, by simp, by simpa using hlen⟩

variable [LawfulChunkBuffer B]

/-- What is found is sent. -/
lemma peerChunkSend_eq (transId : UInt16) {l : List ℤ}
    (hl : ∀ i ∈ l, (ChunkBuffer.getChunk cb i).isSome) :
    ∃ chunks : List Chunk,
      ChunkTrader.peerChunkSend (C := C) cb transId (l.map (p, ·))
        = .ok (chunks.map fun c => .chunk p c transId)
      ∧ chunks.map Chunk.id = l ∧ ∀ c ∈ chunks, c ∈ ChunkBuffer.getChunks cb := by
  induction l with
  | nil => exact ⟨[], rfl, rfl, by simp⟩
  | cons i l ih =>
      obtain ⟨chunks, hsend, hids, hmem⟩ := ih fun j hj => hl j (by simp [hj])
      obtain ⟨c, hc⟩ := Option.isSome_iff_exists.mp (hl i (by simp))
      obtain ⟨hcb, hid⟩ := LawfulChunkBuffer.getChunk_mem cb i c hc
      refine ⟨c :: chunks, ?_, by simp [hid, hids], ?_⟩
      · rw [List.map_cons, ChunkTrader.peerChunkSend, hc]
        simp [hsend]
      · simpa using ⟨hcb, hmem⟩

variable [ChunkIDSet C] [LawfulChunkIDSet C]

/-- **An accept is answered** with chunks of the buffer that have been accepted, each once and at
most `chunksPerPeerOffer`. -/
theorem handleAccept_eq (clk : Clock) (ct : ChunkTrader B ID) (p : ID) (cset : C)
    (transId : UInt16) :
    ∃ (ct' : ChunkTrader B ID) (chunks : List Chunk), ct.chunkTraderHandleAccept clk p cset transId
        = .ok (ct', chunks.map fun c => TraderMessage.chunk (C := C) p c transId)
      ∧ ct'.chunksPerPeerOffer = ct.chunksPerPeerOffer
      ∧ (∀ c ∈ chunks, c.id ∈ ChunkIDSet.ids cset ∧ c ∈ ChunkBuffer.getChunks ct.cb)
      ∧ (chunks.map Chunk.id).Nodup ∧ chunks.length ≤ ct.chunksPerPeerOffer.toNat := by
  have hnone : ([] : List (ID × ℤ)).length
      ≤ (min (chunkIDSetSize cset : ℤ) ct.chunksPerPeerOffer).toNat := Nat.zero_le _
  obtain ⟨l, hpairs, hsub, hsome, hle⟩ := acceptedPairs_eq ct.cb p _ (ChunkIDSet.ids cset) hnone
  obtain ⟨chunks, hsend, hids, hmem⟩ := peerChunkSend_eq (C := C) (p := p) transId hsome
  rw [List.nil_append] at hpairs hle
  have hhandle : ct.chunkTraderHandleAccept clk p cset transId = .ok ({ ct with
      transactions := transactionRegAccept ct.transactions transId (clk.reading ct.ticks)
      ticks := ct.ticks + 1 }, chunks.map fun c => .chunk p c transId) := by
    simp only [ChunkTrader.chunkTraderHandleAccept, hpairs, hsend, Eval.ok_bind]
    rfl
  refine ⟨_, chunks, hhandle, rfl, fun c hc => ⟨?_, hmem c hc⟩, ?_, ?_⟩
  · exact hsub.subset (hids ▸ List.mem_map_of_mem hc)
  · rw [hids]
    exact (LawfulChunkIDSet.nodup_ids cset).sublist hsub
  · rw [List.length_map] at hle
    rw [← List.length_map (f := Chunk.id), hids]
    omega

end Accept

variable [ChunkIDSet C]

/-! ## The two traders and what is between them -/

/-- An offer on the way from A to B, or an accept on the way back. -/
structure InTransit (C : Type) where
  step : ℕ
  cset : C
  maxDeliver : ℤ
  transId : UInt16

/-- Both traders, the offers on the way to B and the accepts on the way to A, and the number of
steps so far. -/
structure Exchange (B C ID : Type) where
  a : ChunkTrader B ID
  b : ChunkTrader B ID
  offers : List (InTransit C)
  accepts : List (InTransit C)
  steps : ℕ

/-- What happens: A offers, an offer reaches B, an accept reaches A, or one of the traders does
something else. -/
inductive ExchangeOp (C ID : Type)
  | offer (picks : ℕ → List (ID × ℤ))
  | deliverOffer (n : ℕ)
  | deliverAccept (n : ℕ)
  | atA (op : TraderOp C ID)
  | atB (op : TraderOp C ID)

/-- What is seen of a step: the sets that A has offered to B, with their transactions; the set that
B has accepted, with its buffer at that time; or the messages that A has sent in reply to an accept,
with its buffer at that time. -/
inductive ExchangeEvent (B C ID : Type)
  | offered (sets : List (C × UInt16))
  | accepted (offerStep : ℕ) (acc : C) (transId : UInt16) (buffer : B)
  | sent (acceptStep : ℕ) (messages : List (TraderMessage ID C)) (transId : UInt16) (buffer : B)
  | other

/-- The offers to one node among the messages sent. -/
def offersTo [DecidableEq ID] (dst : ID) (step : ℕ) (sent : List (TraderMessage ID C)) :
    List (InTransit C) :=
  sent.filterMap fun
    | .offer d cset maxDeliver transId =>
        if d = dst then some ⟨step, cset, maxDeliver, transId⟩ else none
    | _ => none

/-- A step of the exchange; `idA` and `idB` are the node ids of the traders, and each has a clock of
its own. -/
def exchangeStep [DecidableEq ID] (idA idB : ID) (clkA clkB : Clock) (s : Exchange B C ID) :
    ExchangeOp C ID → Eval (Exchange B C ID × ExchangeEvent B C ID)
  | .offer picks =>
      let (a, sent) := s.a.chunkTraderSendOffer clkA picks
      let offers := offersTo idB s.steps sent
      return ({ s with a, offers := s.offers ++ offers, steps := s.steps + 1 },
        .offered (offers.map fun m => (m.cset, m.transId)))
  | .deliverOffer n =>
      match s.offers[n]? with
      | none => return ({ s with steps := s.steps + 1 }, .other)
      | some m => do
          let sel ← s.b.chunkTraderHandleOffer clkB idA m.cset m.maxDeliver
          let reply := ⟨s.steps, sel.accSet, 0, m.transId⟩
          return ({ s with
            b := sel.ct, offers := s.offers.eraseIdx n, accepts := s.accepts ++ [reply],
            steps := s.steps + 1 }, .accepted m.step sel.accSet m.transId s.b.cb)
  | .deliverAccept n =>
      match s.accepts[n]? with
      | none => return ({ s with steps := s.steps + 1 }, .other)
      | some m => do
          let (a, sent) ← s.a.chunkTraderHandleAccept clkA idB m.cset m.transId
          return ({ s with a, accepts := s.accepts.eraseIdx n, steps := s.steps + 1 },
            .sent m.step sent m.transId s.a.cb)
  | .atA op => do
      let (a, _) ← traderStep clkA s.a op
      return ({ s with a, steps := s.steps + 1 }, .other)
  | .atB op => do
      let (b, _) ← traderStep clkB s.b op
      return ({ s with b, steps := s.steps + 1 }, .other)

/-- No step of a trader changes its configuration. -/
lemma traderStep_config {clk : Clock} {ct ct' : ChunkTrader B ID} {op : TraderOp C ID}
    {out : Option (Acceptance C)} (h : traderStep clk ct op = .ok (ct', out)) :
    ct'.config = ct.config := by
  cases op with
  | handleOffer p cset maxDeliver =>
      simp only [traderStep, Eval.bind_eq_ok, Eval.pure_eq_ok, Except.ok.injEq, Prod.mk.injEq] at h
      obtain ⟨s, hs, rfl, -⟩ := h
      exact ChunkTrader.chunkTraderHandleOffer_config hs
  | handleAccept p cset transId =>
      simp only [traderStep, Eval.bind_eq_ok, Eval.pure_eq_ok, Except.ok.injEq, Prod.mk.injEq] at h
      obtain ⟨⟨a, sent⟩, ha, rfl, -⟩ := h
      exact ChunkTrader.chunkTraderHandleAccept_config ha
  | handleAck transId =>
      cases h
      rfl
  | sendOffer picks =>
      cases h
      exact ChunkTrader.chunkTraderSendOffer_config clk picks
  | parseChunk source msg =>
      simp only [traderStep, Eval.bind_eq_ok, Eval.pure_eq_ok, Except.ok.injEq, Prod.mk.injEq] at h
      obtain ⟨⟨a, c, sent⟩, ha, rfl, -⟩ := h
      exact ChunkTrader.chunkTraderParseChunk_config ha
  | addChunk c =>
      simp only [traderStep, Eval.bind_eq_ok, Eval.pure_eq_ok, Except.ok.injEq, Prod.mk.injEq] at h
      obtain ⟨⟨a, res⟩, ha, rfl, -⟩ := h
      obtain ⟨rfl, -⟩ := ChunkTrader.chunkTraderAddChunk_eq ha
      rfl

/-! ## The invariant -/

/-- The reply of B in step `k` is to an offer A has made to it, and has only chunks of that offer
that B did not have. -/
def AcceptedIn (events : List (ExchangeEvent B C ID)) (k : ℕ) (acc : C) (transId : UInt16) : Prop :=
  ∃ i buffer sets off, events[k]? = some (.accepted i acc transId buffer)
    ∧ i < k ∧ events[i]? = some (.offered sets) ∧ (off, transId) ∈ sets
    ∧ ∀ x ∈ ChunkIDSet.ids acc, x ∈ ChunkIDSet.ids off ∧ x ∉ bufferIds buffer

/-- The messages that A has sent in step `j`, to B, are chunks of the accept of step `k` and of its
buffer at that time, each once and not too many. -/
def SentIn (quota : ℤ) (idB : ID) (events : List (ExchangeEvent B C ID)) (j k : ℕ)
    (messages : List (TraderMessage ID C)) (transId : UInt16) (buffer : B) : Prop :=
  k < j ∧ ∃ (acc : C) (chunks : List Chunk), AcceptedIn events k acc transId
    ∧ messages = chunks.map (fun c => .chunk idB c transId)
    ∧ (∀ c ∈ chunks, c.id ∈ ChunkIDSet.ids acc ∧ c ∈ ChunkBuffer.getChunks buffer)
    ∧ (chunks.map Chunk.id).Nodup ∧ chunks.length ≤ quota.toNat

/-- What holds of the exchange and its history: what is on the way has been sent, an accept that is
on the way has not been answered, and every answer is as it should be. -/
structure ExchangeInv (quota : ℤ) (idB : ID) (clkB : Clock) (events : List (ExchangeEvent B C ID))
    (s : Exchange B C ID) : Prop where
  steps : s.steps = events.length
  allowed : s.a.chunksPerPeerOffer = quota
  locks : LocksInv clkB s.b.chLocks s.b.ticks
  offers : ∀ m ∈ s.offers, ∃ sets, events[m.step]? = some (.offered sets)
    ∧ (m.cset, m.transId) ∈ sets
  accepts : ∀ m ∈ s.accepts, AcceptedIn events m.step m.cset m.transId
  once : (s.accepts.map InTransit.step).Nodup
  fresh : ∀ m ∈ s.accepts, ∀ (j : ℕ) messages transId buffer,
    events[j]? ≠ some (.sent m.step messages transId buffer)
  sent : ∀ (j k : ℕ) messages transId buffer, events[j]? = some (.sent k messages transId buffer) →
    SentIn quota idB events j k messages transId buffer
      ∧ ∀ (j' : ℕ) messages' transId' buffer',
        events[j']? = some (.sent k messages' transId' buffer') → j' = j

section Invariant

variable {events : List (ExchangeEvent B C ID)} {ev : ExchangeEvent B C ID}

lemma AcceptedIn.concat {k : ℕ} {acc : C} {transId : UInt16}
    (h : AcceptedIn events k acc transId) : AcceptedIn (events ++ [ev]) k acc transId := by
  obtain ⟨i, buffer, sets, off, hk, hik, hi, hoff, hacc⟩ := h
  exact ⟨i, buffer, sets, off, getElem?_concat_eq_some.mpr (Or.inl hk), hik,
    getElem?_concat_eq_some.mpr (Or.inl hi), hoff, hacc⟩

lemma AcceptedIn.lt {k : ℕ} {acc : C} {transId : UInt16} (h : AcceptedIn events k acc transId) :
    k < events.length := by
  obtain ⟨i, buffer, sets, off, hk, -⟩ := h
  exact (List.getElem?_eq_some_iff.mp hk).1

variable {quota : ℤ} {idB : ID} {clkB : Clock} {s s' : Exchange B C ID}

lemma SentIn.concat {j k : ℕ} {messages : List (TraderMessage ID C)} {transId : UInt16}
    {buffer : B} (h : SentIn quota idB events j k messages transId buffer) :
    SentIn quota idB (events ++ [ev]) j k messages transId buffer := by
  obtain ⟨hkj, acc, chunks, hacc, hrest⟩ := h
  exact ⟨hkj, acc, chunks, hacc.concat, hrest⟩

/-- A step that sends nothing for an accept, whatever it puts on the way. -/
lemma ExchangeInv.concat (h : ExchangeInv quota idB clkB events s)
    (hev : ∀ k messages transId buffer, ev ≠ .sent k messages transId buffer)
    (hsteps : s'.steps = s.steps + 1) (hquota : s'.a.chunksPerPeerOffer = quota)
    (hlocks : LocksInv clkB s'.b.chLocks s'.b.ticks)
    (hoffers : ∀ m ∈ s'.offers, m ∈ s.offers ∨ m.step = events.length
      ∧ ∃ sets, ev = .offered sets ∧ (m.cset, m.transId) ∈ sets)
    (haccepts : s'.accepts = s.accepts ∨ ∃ m, s'.accepts = s.accepts ++ [m]
      ∧ m.step = events.length ∧ AcceptedIn (events ++ [ev]) m.step m.cset m.transId) :
    ExchangeInv quota idB clkB (events ++ [ev]) s' := by
  have hold : ∀ (j k : ℕ) messages transId buffer,
      (events ++ [ev])[j]? = some (ExchangeEvent.sent k messages transId buffer) →
      events[j]? = some (.sent k messages transId buffer) := by
    intro j k messages transId buffer hj
    rcases getElem?_concat_eq_some.mp hj with hj | ⟨-, he⟩
    · exact hj
    · exact absurd he.symm (hev k messages transId buffer)
  refine ⟨by simp [hsteps, h.steps], hquota, hlocks, ?_, ?_, ?_, ?_, ?_⟩
  · intro m hm
    rcases hoffers m hm with hm | ⟨hstep, sets, rfl, hsets⟩
    · obtain ⟨sets, he, hsets⟩ := h.offers m hm
      exact ⟨sets, getElem?_concat_eq_some.mpr (Or.inl he), hsets⟩
    · exact ⟨sets, getElem?_concat_eq_some.mpr (Or.inr ⟨hstep, rfl⟩), hsets⟩
  · intro m hm
    rcases haccepts with he | ⟨m', he, -, hacc⟩
    · exact (h.accepts m (he ▸ hm)).concat
    · rw [he, List.mem_append, List.mem_singleton] at hm
      rcases hm with hm | rfl
      · exact (h.accepts m hm).concat
      · exact hacc
  · rcases haccepts with he | ⟨m', he, hstep, -⟩
    · exact he ▸ h.once
    · rw [he, List.map_append, List.nodup_append]
      refine ⟨h.once, List.nodup_singleton _, ?_⟩
      rintro k hk k' hk'
      obtain ⟨m, hm, rfl⟩ := List.mem_map.mp hk
      obtain rfl : k' = events.length := by simpa [hstep] using hk'
      exact (h.accepts m hm).lt.ne
  · intro m hm j messages transId buffer hj
    have hj := hold _ _ _ _ _ hj
    rcases haccepts with he | ⟨m', he, hstep, -⟩
    · exact h.fresh m (he ▸ hm) _ _ _ _ hj
    · rw [he, List.mem_append, List.mem_singleton] at hm
      rcases hm with hm | rfl
      · exact h.fresh m hm _ _ _ _ hj
      · -- an accept of this step cannot have been answered before
        have hlt := (List.getElem?_eq_some_iff.mp hj).1
        have hkj := (h.sent _ _ _ _ _ hj).1.1
        omega
  · intro j k messages transId buffer hj
    obtain ⟨hsent, honly⟩ := h.sent _ _ _ _ _ (hold _ _ _ _ _ hj)
    exact ⟨hsent.concat, fun j' messages' transId' buffer' hj' =>
      honly j' messages' transId' buffer' (hold _ _ _ _ _ hj')⟩

/-- An accept that is on the way is answered. -/
lemma ExchangeInv.answer (h : ExchangeInv quota idB clkB events s) {n : ℕ} {m : InTransit C}
    (hm : s.accepts[n]? = some m) {messages : List (TraderMessage ID C)} {buffer : B}
    {a : ChunkTrader B ID} (hquota : a.chunksPerPeerOffer = quota)
    (hsent : SentIn quota idB events events.length m.step messages m.transId buffer) :
    ExchangeInv quota idB clkB (events ++ [.sent m.step messages m.transId buffer])
      { s with a, accepts := s.accepts.eraseIdx n, steps := s.steps + 1 } := by
  obtain ⟨hn, rfl⟩ := List.getElem?_eq_some_iff.mp hm
  have hmem : s.accepts[n] ∈ s.accepts := List.getElem_mem hn
  have hsub : s.accepts.eraseIdx n ⊆ s.accepts := List.eraseIdx_subset
  have honce : ∀ m' ∈ s.accepts.eraseIdx n, m'.step ≠ s.accepts[n].step := by
    have hperm := (List.getElem_cons_eraseIdx_perm hn).map InTransit.step
    have hnodup := hperm.nodup_iff.mpr h.once
    rw [List.map_cons, List.nodup_cons] at hnodup
    intro m' hm' he
    exact hnodup.1 (he ▸ List.mem_map_of_mem hm')
  refine ⟨by simp [h.steps], hquota, h.locks, ?_, ?_, ?_, ?_, ?_⟩
  · intro m' hm'
    obtain ⟨sets, he, hsets⟩ := h.offers m' hm'
    exact ⟨sets, getElem?_concat_eq_some.mpr (Or.inl he), hsets⟩
  · exact fun m' hm' => (h.accepts m' (hsub hm')).concat
  · exact h.once.sublist ((List.eraseIdx_sublist _ _).map _)
  · intro m' hm' j messages' transId' buffer' hj
    rcases getElem?_concat_eq_some.mp hj with hj | ⟨-, he⟩
    · exact h.fresh m' (hsub hm') _ _ _ _ hj
    · injection he with he
      exact honce m' hm' he
  · intro j k messages' transId' buffer' hj
    rcases getElem?_concat_eq_some.mp hj with hj | ⟨rfl, he⟩
    · obtain ⟨hold, honly⟩ := h.sent _ _ _ _ _ hj
      refine ⟨hold.concat, fun j' messages'' transId'' buffer'' hj' => ?_⟩
      rcases getElem?_concat_eq_some.mp hj' with hj' | ⟨-, he⟩
      · exact honly _ _ _ _ hj'
      · injection he with he
        exact absurd (he ▸ hj) (h.fresh _ hmem _ _ _ _)
    · injection he with hk hmessages htransId hbuffer
      subst hk hmessages htransId hbuffer
      refine ⟨hsent.concat, fun j' messages'' transId'' buffer'' hj' => ?_⟩
      rcases getElem?_concat_eq_some.mp hj' with hj' | ⟨hlen, -⟩
      · exact absurd hj' (h.fresh _ hmem _ _ _ _)
      · exact hlen

end Invariant

section Runs

variable [LawfulChunkBuffer B] [LawfulChunkIDSet C]

variable {quota : ℤ} {idA idB : ID} {clkA clkB : Clock} {events : List (ExchangeEvent B C ID)}
  {ev : ExchangeEvent B C ID} {s s' : Exchange B C ID}

/-- **The accept of an offer** has only chunks that were offered and are not in the buffer. -/
lemma handleOffer_accepted {ct : ChunkTrader B ID} {p : ID} {cset : C} {maxDeliver : ℤ}
    {sel : Selection B C ID} (hinv : LocksInv clkB ct.chLocks ct.ticks)
    (h : ct.chunkTraderHandleOffer clkB p cset maxDeliver = .ok sel) :
    ∀ i ∈ ChunkIDSet.ids sel.accSet, i ∈ ChunkIDSet.ids cset ∧ i ∉ bufferIds ct.cb := by
  intro i hi
  have hsel := handleOffer_selected hinv h
  obtain ⟨t, hx⟩ : ∃ t, (i, t) ∈ sel.taken := by simpa using (hsel.accSet i).mp hi
  refine ⟨?_, LawfulChunkBuffer.getChunk_eq_none _ _ (hsel.missing _ hx)⟩
  exact List.count_pos_iff.mp (Nat.pos_of_ne_zero (hsel.offered _ hx))

variable [DecidableEq ID]

/-- **The step of the exchange.** -/
lemma exchangeStep_inv {op : ExchangeOp C ID} (h : ExchangeInv quota idB clkB events s)
    (hstep : exchangeStep idA idB clkA clkB s op = .ok (s', ev)) :
    ExchangeInv quota idB clkB (events ++ [ev]) s' := by
  cases op with
  | offer picks =>
      cases hstep
      have hconfig := s.a.chunkTraderSendOffer_config (C := C) clkA picks
      refine h.concat (by simp) rfl ((ChunkTrader.chunksPerPeerOffer_eq hconfig).trans h.allowed)
        h.locks ?_ (Or.inl rfl)
      intro m hm
      refine (List.mem_append.mp hm).imp_right fun hm => ⟨?_, _, rfl, List.mem_map_of_mem hm⟩
      obtain ⟨msg, -, hmsg⟩ := List.mem_filterMap.mp hm
      rw [← h.steps]
      cases msg with
      | offer d cset maxDeliver transId =>
          simp only at hmsg
          split_ifs at hmsg
          cases hmsg
          rfl
      | _ => cases hmsg
  | deliverOffer n =>
      rw [exchangeStep] at hstep
      cases hm : s.offers[n]? with
      | none =>
          rw [hm] at hstep
          cases hstep
          exact h.concat (by simp) rfl h.allowed h.locks (fun m hm => Or.inl hm) (Or.inl rfl)
      | some m =>
          simp only [hm, Eval.bind_eq_ok, Eval.pure_eq_ok, Except.ok.injEq, Prod.mk.injEq] at hstep
          obtain ⟨sel, hsel, rfl, rfl⟩ := hstep
          obtain ⟨sets, hsets, hmem⟩ := h.offers m (List.mem_of_getElem? hm)
          refine h.concat (by simp) rfl h.allowed (handleOffer_selected h.locks hsel).kept.inv
            (fun m' hm' => Or.inl (List.eraseIdx_subset hm')) (Or.inr ⟨_, rfl, h.steps, ?_⟩)
          refine ⟨m.step, s.b.cb, sets, m.cset, ?_, ?_, ?_, hmem, handleOffer_accepted h.locks hsel⟩
          · exact getElem?_concat_eq_some.mpr (Or.inr ⟨h.steps, rfl⟩)
          · rw [h.steps]
            exact (List.getElem?_eq_some_iff.mp hsets).1
          · exact getElem?_concat_eq_some.mpr (Or.inl hsets)
  | deliverAccept n =>
      rw [exchangeStep] at hstep
      cases hm : s.accepts[n]? with
      | none =>
          rw [hm] at hstep
          cases hstep
          exact h.concat (by simp) rfl h.allowed h.locks (fun m hm => Or.inl hm) (Or.inl rfl)
      | some m =>
          obtain ⟨a, chunks, hhandle, hquota, hchunks, hnodup, hlen⟩ :=
            handleAccept_eq clkA s.a idB m.cset m.transId
          simp only [hm, hhandle, Eval.ok_bind, Eval.pure_eq_ok, Except.ok.injEq,
            Prod.mk.injEq] at hstep
          obtain ⟨rfl, rfl⟩ := hstep
          have hacc := h.accepts m (List.mem_of_getElem? hm)
          exact h.answer hm (hquota.trans h.allowed)
            ⟨hacc.lt, m.cset, chunks, hacc, rfl, hchunks, hnodup, h.allowed ▸ hlen⟩
  | atA op =>
      simp only [exchangeStep, Eval.bind_eq_ok, Eval.pure_eq_ok, Except.ok.injEq,
        Prod.mk.injEq] at hstep
      obtain ⟨⟨a, out⟩, ha, rfl, rfl⟩ := hstep
      have hallowed := (ChunkTrader.chunksPerPeerOffer_eq (traderStep_config ha)).trans h.allowed
      exact h.concat (by simp) rfl hallowed h.locks (fun m hm => Or.inl hm) (Or.inl rfl)
  | atB op =>
      simp only [exchangeStep, Eval.bind_eq_ok, Eval.pure_eq_ok, Except.ok.injEq,
        Prod.mk.injEq] at hstep
      obtain ⟨⟨b, out⟩, hb, rfl, rfl⟩ := hstep
      exact h.concat (by simp) rfl h.allowed (traderStep_stepped h.locks hb).inv
        (fun m hm => Or.inl hm) (Or.inl rfl)

/-- **The exchange of two traders.**  In every run, every answer of A to an accept of B is one to an
accept that B has sent for an offer of A, in the transaction of the offer, and no accept is answered
twice.  The chunks sent are in the set that was offered and in A's buffer when they are sent, were
not in B's buffer when it accepted them, are sent once each, and are at most as many as A allows. -/
theorem exchange_sent {a b : ChunkTrader B ID} {lockTimeoutMs : ℕ} {ops : List (ExchangeOp C ID)}
    (h : exec (exchangeStep idA idB clkA clkB)
      ⟨a, { b with chLocks := chunkLocksCreate lockTimeoutMs }, [], [], 0⟩ ops = .ok (s, events))
    {j k : ℕ} {messages : List (TraderMessage ID C)} {transId : UInt16} {bufferA : B}
    (hj : events[j]? = some (.sent k messages transId bufferA)) :
    (∃ (i : ℕ) (acc : C) (bufferB : B) (sets : List (C × UInt16)) (off : C) (chunks : List Chunk),
      i < k ∧ k < j
      ∧ events[i]? = some (.offered sets) ∧ (off, transId) ∈ sets
      ∧ events[k]? = some (.accepted i acc transId bufferB)
      ∧ messages = chunks.map (fun c => .chunk idB c transId)
      ∧ (∀ c ∈ chunks, c.id ∈ ChunkIDSet.ids acc ∧ c.id ∈ ChunkIDSet.ids off
        ∧ c ∈ ChunkBuffer.getChunks bufferA ∧ c.id ∉ bufferIds bufferB)
      ∧ (chunks.map Chunk.id).Nodup ∧ chunks.length ≤ a.chunksPerPeerOffer.toNat)
    ∧ ∀ (j' : ℕ) messages' transId' bufferA',
      events[j']? = some (.sent k messages' transId' bufferA') → j' = j := by
  have hinv : ExchangeInv a.chunksPerPeerOffer idB clkB events s := by
    refine exec_history (J := fun _ => ExchangeInv a.chunksPerPeerOffer idB clkB) h ?_
      fun _ _ _ _ _ _ hj hstep => exchangeStep_inv hj hstep
    exact ⟨rfl, rfl, chunkLocksCreate_inv clkB _ _, by simp, by simp, by simp, by simp, by simp⟩
  obtain ⟨⟨hkj, acc, chunks, hacc, hmessages, hchunks, hnodup, hlen⟩, honly⟩ :=
    hinv.sent _ _ _ _ _ hj
  obtain ⟨i, bufferB, sets, off, hk, hik, hi, hoff, hids⟩ := hacc
  refine ⟨⟨i, acc, bufferB, sets, off, chunks, hik, hkj, hi, hoff, hk, hmessages, fun c hc => ?_,
    hnodup, hlen⟩, honly⟩
  obtain ⟨hca, hcb⟩ := hchunks c hc
  exact ⟨hca, (hids _ hca).1, hcb, (hids _ hca).2⟩

/-- Two chunks are offered, of which B gets one from elsewhere before the offer reaches it. -/
def halfWanted : List (ExchangeOp IDList ℕ) :=
  [.atA (.addChunk ⟨5, 1, 0, 0, [7], []⟩), .atA (.addChunk ⟨6, 1, 0, 0, [8], []⟩),
    .offer fun _ => [(2, 5), (2, 6)], .atB (.addChunk ⟨6, 1, 0, 0, [8], []⟩), .deliverOffer 0,
    .deliverAccept 0]

/-- A trader that sends up to two chunks for an accept. -/
def twoChunkTrader : ChunkTrader ChunkList ℕ := chunkTraderCreate ⟨10, []⟩ .uniform 1 1 2

theorem exchange_sent_halfWanted :
    ∃ (s : Exchange ChunkList IDList ℕ) (events : List (ExchangeEvent ChunkList IDList ℕ))
      (messages : List (TraderMessage ℕ IDList)) (transId : UInt16) (bufferA : ChunkList),
      exec (exchangeStep 1 2 (.ticking 100) (.ticking 100)) ⟨twoChunkTrader,
        { twoChunkTrader with chLocks := chunkLocksCreate 80 }, [], [], 0⟩ halfWanted
        = .ok (s, events)
      ∧ events[5]? = some (.sent 4 messages transId bufferA)
      ∧ messages = [.chunk 2 ⟨5, 1, 0, 0, [7], []⟩ 1]
      ∧ ((∃ (i : ℕ) (acc : IDList) (bufferB : ChunkList) (sets : List (IDList × UInt16))
          (off : IDList) (chunks : List Chunk), i < 4 ∧ 4 < 5
          ∧ events[i]? = some (.offered sets) ∧ (off, transId) ∈ sets
          ∧ events[4]? = some (.accepted i acc transId bufferB)
          ∧ messages = chunks.map (fun c => .chunk 2 c transId)
          ∧ (∀ c ∈ chunks, c.id ∈ ChunkIDSet.ids acc ∧ c.id ∈ ChunkIDSet.ids off
            ∧ c ∈ ChunkBuffer.getChunks bufferA ∧ c.id ∉ bufferIds bufferB)
          ∧ (chunks.map Chunk.id).Nodup ∧ chunks.length ≤ twoChunkTrader.chunksPerPeerOffer.toNat)
        ∧ ∀ (j' : ℕ) messages' transId' bufferA',
          events[j']? = some (.sent 4 messages' transId' bufferA') → j' = 5) := by
  obtain ⟨s, events, messages, transId, bufferA, h, hj, hmessages⟩ :
      ∃ (s : Exchange ChunkList IDList ℕ) (events : List (ExchangeEvent ChunkList IDList ℕ))
        (messages : List (TraderMessage ℕ IDList)) (transId : UInt16) (bufferA : ChunkList),
        exec (exchangeStep 1 2 (.ticking 100) (.ticking 100)) ⟨twoChunkTrader,
          { twoChunkTrader with chLocks := chunkLocksCreate 80 }, [], [], 0⟩ halfWanted
          = .ok (s, events)
        ∧ events[5]? = some (.sent 4 messages transId bufferA)
        ∧ messages = [.chunk 2 ⟨5, 1, 0, 0, [7], []⟩ 1] := ⟨_, _, _, _, _, rfl, rfl, rfl⟩
  exact ⟨s, events, messages, transId, bufferA, h, hj, hmessages, exchange_sent h hj⟩

end Runs

end PeerStreamer
