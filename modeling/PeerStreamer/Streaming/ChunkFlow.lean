import PeerStreamer.Streaming.PsInstance

/-!
# Chunks in one round

What one round of an instance can do with chunks (`Flow`): its buffer gets the chunk read from the
input or one that has arrived, chunk messages carry what is in the buffer, and what has arrived and
is in the buffer is delivered to the output.
-/

namespace PeerStreamer

variable {B C S ι : Type}

/-! ## The trader -/

section Trader

variable {clk : Clock} {ct : ChunkTrader B ι} {cb : B} {transId : UInt16}

/-- What is sent is in the buffer. -/
lemma mem_peerChunkSend [ChunkBuffer B] [LawfulChunkBuffer B] {pairs : List (ι × ℤ)}
    {messages : List (TraderMessage ι C)} {m : TraderMessage ι C}
    (h : ChunkTrader.peerChunkSend cb transId pairs = .ok messages) (hm : m ∈ messages) :
    ∃ dst c, m = .chunk dst c transId ∧ c ∈ ChunkBuffer.getChunks cb := by
  induction pairs generalizing messages with
  | nil =>
      cases h
      exact absurd hm List.not_mem_nil
  | cons pair pairs ih =>
      obtain ⟨dst, cid⟩ := pair
      rw [ChunkTrader.peerChunkSend] at h
      cases hget : ChunkBuffer.getChunk cb cid with
      | none =>
          rw [hget] at h
          cases h
      | some c =>
          simp only [hget, Eval.bind_eq_ok, Eval.pure_eq_ok, Except.ok.injEq] at h
          obtain ⟨rest, hrest, rfl⟩ := h
          rcases List.mem_cons.mp hm with rfl | hm
          · exact ⟨dst, c, rfl, (LawfulChunkBuffer.getChunk_mem cb cid c hget).1⟩
          · exact ih hrest hm

variable [ChunkIDSet C]

/-- The offers that are sent have the ids of what the scheduler has picked. -/
lemma mem_chunkTraderSendOffer {picks : ℕ → List (ι × ℤ)} {m : TraderMessage ι C}
    (hm : m ∈ (ct.chunkTraderSendOffer (C := C) clk picks).2) :
    ∃ dst maxDeliver transId j, picks j ≠ []
      ∧ m = .offer dst (chunkIDSetAddAll ChunkIDSet.init ((picks j).map Prod.snd)) maxDeliver
        transId := by
  rw [ChunkTrader.chunkTraderSendOffer] at hm
  generalize List.range ct.peersPerOffer.toNat = rounds at hm
  induction rounds generalizing ct with
  | nil => exact absurd hm List.not_mem_nil
  | cons j rounds ih =>
      rw [List.map_cons, ChunkTrader.offerRounds] at hm
      rcases List.mem_append.mp hm with hm | hm
      · cases hpick : picks j with
        | nil =>
            rw [hpick] at hm
            exact absurd hm List.not_mem_nil
        | cons pair picked =>
            rw [hpick] at hm
            obtain rfl := List.mem_singleton.mp hm
            exact ⟨_, _, _, j, by rw [hpick]; exact List.cons_ne_nil _ _, by rw [hpick]⟩
      · exact ih hm

/-- Making offers only adds transactions. -/
lemma chunkTraderSendOffer_eq (C : Type) [ChunkIDSet C] (clk : Clock) (ct : ChunkTrader B ι)
    (picks : ℕ → List (ι × ℤ)) : ∃ transactions ticks,
    (ct.chunkTraderSendOffer (C := C) clk picks).1 = { ct with transactions, ticks } := by
  rw [ChunkTrader.chunkTraderSendOffer]
  generalize (List.range ct.peersPerOffer.toNat).map picks = rounds
  induction rounds generalizing ct with
  | nil => exact ⟨_, _, rfl⟩
  | cons picked rounds ih =>
      rw [ChunkTrader.offerRounds]
      cases picked with
      | nil => exact ih _
      | cons pair picked => exact ih _

/-- Handling an offer only locks chunks. -/
lemma chunkTraderHandleOffer_eq [ChunkBuffer B] {p : ι} {cset : C} {maxDeliver : ℤ}
    {sel : Selection B C ι} (h : ct.chunkTraderHandleOffer clk p cset maxDeliver = .ok sel) :
    ∃ chLocks ticks, sel.ct = { ct with chLocks, ticks } := by
  simp only [ChunkTrader.chunkTraderHandleOffer, Eval.bind_eq_ok, Eval.pure_eq_ok,
    Except.ok.injEq] at h
  obtain ⟨-, -, n, -, offered, -, rfl⟩ := h
  suffices hloop : ∀ (n : ℕ) (cid : ℤ) (sel : Selection B C ι), ∃ chLocks ticks,
      (sel.selectLatest clk p offered maxDeliver n cid).ct = { sel.ct with chLocks, ticks } from
    hloop _ _ _
  intro n
  induction n with
  | zero => exact fun _ _ => ⟨_, _, rfl⟩
  | succ n ih =>
      intro cid sel
      rw [Selection.selectLatest]
      split_ifs
      · obtain ⟨chLocks, ticks, he⟩ := ih (cid - 1) (sel.select clk p offered cid)
        rw [he, Selection.select]
        split_ifs
        · generalize sel.ct.chLocks.chunkIslocked clk cid sel.ct.ticks = r
          obtain ⟨locked, chLocks', ticks'⟩ := r
          cases locked
          · exact ⟨_, _, rfl⟩
          · exact ⟨_, _, rfl⟩
        · exact ⟨_, _, rfl⟩
      · exact ⟨_, _, rfl⟩

end Trader

/-! ## What a round can do -/

/-- A chunk message has arrived whose chunk is now `d`. -/
def PsReceived.Brings (received : PsReceived C ι) (d : Chunk) : Prop :=
  ∃ source c transId, received = .chunk source (some (c, transId))
    ∧ chunkAttributesUpdateUponReception c = .ok d

/-- What is written. -/
def PsEffect.chunkWritten : PsEffect C ι → Option Chunk
  | .written w => some w
  | _ => none

/-- What a round may send: a chunk of the buffer `cb`, an offer of what the scheduler has picked, or
anything else. -/
def PsEffect.Justified [ChunkBuffer B] [ChunkIDSet C] (cb : B) (picks : ℕ → List (ι × ℤ)) :
    PsEffect C ι → Prop
  | .trader (.chunk _ c _) => c ∈ ChunkBuffer.getChunks cb
  | .trader (.offer _ cset _ _) =>
      ∃ j, picks j ≠ [] ∧ cset = chunkIDSetAddAll ChunkIDSet.init ((picks j).map Prod.snd)
  | _ => True

section Flow

variable [ChunkBuffer B] [ChunkIDSet C]

/-- What one round can do with chunks, if it reads the chunk `new` from its input. -/
structure Flow (ps ps' : PsInstance B ι S) (new : Option Chunk) (received : PsReceived C ι)
    (picks : ℕ → List (ι × ℤ)) (sent : List (PsEffect C ι)) : Prop where
  source : ps'.isSource = ps.isSource
  buffer : ∀ d ∈ ChunkBuffer.getChunks ps'.trader.cb,
    d ∈ ChunkBuffer.getChunks ps.trader.cb ∨ new = some d ∨ received.Brings d
  sends : ∀ e ∈ sent, e.Justified ps'.trader.cb picks
  output : (ps'.chunkOut = ps.chunkOut ∧ sent.filterMap PsEffect.chunkWritten = [])
    ∨ ∃ d o o' res, received.Brings d ∧ d ∈ ChunkBuffer.getChunks ps'.trader.cb
      ∧ ps.chunkOut = some o ∧ ps'.chunkOut = some o'
      ∧ outputDeliver o d = .ok (o', res, sent.filterMap PsEffect.chunkWritten)

variable {ps ps' ps'' : PsInstance B ι S} {new : Option Chunk} {received : PsReceived C ι}
  {picks : ℕ → List (ι × ℤ)} {sent more : List (PsEffect C ι)}

/-- A round that leaves the buffer and the output alone. -/
lemma Flow.of_eq (htrader : ps'.trader.cb = ps.trader.cb) (hout : ps'.chunkOut = ps.chunkOut)
    (hsent : ∀ e ∈ sent, e.Justified ps'.trader.cb picks ∧ e.chunkWritten = none) :
    Flow ps ps' new received picks sent where
  source := by rw [PsInstance.isSource, PsInstance.isSource, hout]
  buffer d hd := Or.inl (htrader ▸ hd)
  sends e he := (hsent e he).1
  output := Or.inl ⟨hout, List.filterMap_eq_nil_iff.mpr fun e he => (hsent e he).2⟩

/-- What happens besides. -/
lemma Flow.extend (h : Flow ps ps' new received picks sent) (htrader : ps''.trader = ps'.trader)
    (hout : ps''.chunkOut = ps'.chunkOut)
    (hmore : ∀ e ∈ more, e.Justified ps'.trader.cb picks ∧ e.chunkWritten = none) :
    Flow ps ps'' new received picks (sent ++ more) := by
  have hwritten : (sent ++ more).filterMap PsEffect.chunkWritten
      = sent.filterMap PsEffect.chunkWritten := by
    rw [List.filterMap_append, List.filterMap_eq_nil_iff.mpr fun e he => (hmore e he).2,
      List.append_nil]
  refine ⟨?_, ?_, ?_, ?_⟩
  · rw [← h.source, PsInstance.isSource, PsInstance.isSource, hout]
  · rw [htrader]
    exact h.buffer
  · intro e he
    rw [htrader]
    rcases List.mem_append.mp he with he | he
    · exact h.sends e he
    · exact (hmore e he).1
  · rw [hwritten, hout, htrader]
    exact h.output

/-- The messages of the topology. -/
lemma justified_topology (cb : B) (told : List (TopologyMessage ι)) :
    ∀ e ∈ told.map (PsEffect.topology (C := C)), e.Justified cb picks ∧ e.chunkWritten = none := by
  intro e he
  obtain ⟨m, -, rfl⟩ := List.mem_map.mp he
  exact ⟨trivial, rfl⟩

/-- The messages of the trader. -/
lemma justified_trader {cb : B} {messages : List (TraderMessage ι C)}
    (h : ∀ m ∈ messages, (PsEffect.trader m).Justified cb picks) :
    ∀ e ∈ messages.map PsEffect.trader, e.Justified cb picks ∧ e.chunkWritten = none := by
  intro e he
  obtain ⟨m, hm, rfl⟩ := List.mem_map.mp he
  exact ⟨h m hm, rfl⟩

/-! ## The steps of a round -/

section Steps

lemma psinstanceInjectChunk_flow [LawfulChunkBuffer B] [StoringChunkBuffer B] {interval : ℤ}
    {pairs : List (ι × ℤ)} (h : ps.psinstanceInjectChunk new interval pairs = .ok (ps', sent)) :
    Flow ps ps' new received picks sent := by
  rw [PsInstance.psinstanceInjectChunk] at h
  split_ifs at h with hsource
  · cases new with
    | none =>
        cases h
        exact .of_eq rfl rfl (by simp)
    | some c =>
        have hbuffer := StoringChunkBuffer.mem_addChunk ps.trader.cb c
        rw [Eval.bind_eq_ok] at h
        obtain ⟨⟨trader, res⟩, hadd, h⟩ := h
        obtain ⟨rfl, rfl⟩ := ChunkTrader.chunkTraderAddChunk_eq hadd
        by_cases hacc : (ChunkBuffer.addChunk ps.trader.cb c).2 < 0
        · simp only [hacc, if_true, neg_eq_zero, one_ne_zero, if_false, Eval.pure_eq_ok,
            Except.ok.injEq, Prod.mk.injEq] at h
          obtain ⟨rfl, rfl⟩ := h
          refine ⟨rfl, fun d hd => ?_, by simp, Or.inl ⟨rfl, rfl⟩⟩
          exact (hbuffer d hd).elim (fun he => Or.inr (Or.inl (he ▸ rfl))) Or.inl
        · simp only [hacc, if_false, if_true, Eval.bind_eq_ok, Eval.pure_eq_ok, Except.ok.injEq,
            Prod.mk.injEq] at h
          obtain ⟨messages, hsend, rfl, rfl⟩ := h
          have hmessages : ∀ m ∈ messages, (PsEffect.trader m).Justified
              (ChunkBuffer.addChunk ps.trader.cb c).1 picks := by
            intro m hm
            obtain ⟨dst, d, rfl, hd⟩ := mem_peerChunkSend hsend hm
            exact hd
          have hjust := justified_trader hmessages
          exact ⟨rfl, fun d hd => (hbuffer d hd).elim (fun he => Or.inr (Or.inl (he ▸ rfl))) Or.inl,
            fun e he => (hjust e he).1,
            Or.inl ⟨rfl, List.filterMap_eq_nil_iff.mpr fun e he => (hjust e he).2⟩⟩
  · cases h
    exact .of_eq rfl rfl (by simp)

variable {clk : Clock} {source : ι}

/-- **What becomes of a chunk message.**  It is ignored, or its chunk is offered to the buffer and,
if that accepts it, delivered to the output. -/
lemma handleChunk_cases {msg : Option (Chunk × UInt16)}
    (h : ps.handleChunk source msg = .ok (ps', sent)) :
    (ps' = ps ∧ sent = [])
    ∨ ∃ o d acked transId, ps.chunkOut = some o ∧ (PsReceived.chunk (C := C) source msg).Brings d
      ∧ ps'.trader.cb = (ChunkBuffer.addChunk ps.trader.cb d).1
      ∧ (ps'.chunkOut = ps.chunkOut ∧ sent = [.trader (.ack source acked transId)]
        ∨ 0 ≤ (ChunkBuffer.addChunk ps.trader.cb d).2
          ∧ ∃ o' res ws, outputDeliver o d = .ok (o', res, ws) ∧ ps'.chunkOut = some o'
            ∧ sent = .trader (.ack source acked transId) :: ws.map .written) := by
  rw [PsInstance.handleChunk] at h
  cases hout : ps.chunkOut with
  | none =>
      simp only [hout, Eval.pure_eq_ok, Except.ok.injEq, Prod.mk.injEq] at h
      exact Or.inl ⟨h.1.symm, h.2.symm⟩
  | some o =>
      cases msg with
      | none =>
          simp only [hout, ChunkTrader.chunkTraderParseChunk, Eval.pure_eq_ok, Eval.ok_bind,
            Except.ok.injEq, Prod.mk.injEq] at h
          exact Or.inl ⟨h.1 ▸ (by cases ps; exact hout ▸ rfl), h.2.symm⟩
      | some msg =>
          obtain ⟨c, transId⟩ := msg
          simp only [hout, ChunkTrader.chunkTraderParseChunk, Eval.bind_eq_ok, Eval.pure_eq_ok,
            Except.ok.injEq] at h
          obtain ⟨⟨trader, c', messages⟩, ⟨d, hd, he⟩, h⟩ := h
          cases he
          rw [Eval.bind_eq_ok] at h
          obtain ⟨⟨trader, res⟩, hadd, h⟩ := h
          obtain ⟨rfl, rfl⟩ := ChunkTrader.chunkTraderAddChunk_eq hadd
          refine Or.inr ⟨o, d, chunkBufferToIdset ps.trader.cb, transId, rfl,
            ⟨source, c, transId, rfl, hd⟩, ?_⟩
          by_cases hacc : (ChunkBuffer.addChunk ps.trader.cb d).2 < 0
          · simp only [hacc, if_true, neg_eq_zero, one_ne_zero, if_false, Except.ok.injEq,
              Prod.mk.injEq] at h
            obtain ⟨rfl, rfl⟩ := h
            exact ⟨rfl, Or.inl ⟨rfl, rfl⟩⟩
          · simp only [hacc, if_false, if_true, Eval.bind_eq_ok, Except.ok.injEq,
              Prod.mk.injEq] at h
            obtain ⟨measure, -, ⟨o', res, ws⟩, hdel, rfl, rfl⟩ := h
            exact ⟨rfl, Or.inr ⟨not_lt.mp hacc, o', res, ws, hdel, rfl, rfl⟩⟩

lemma handleChunk_flow [StoringChunkBuffer B] {msg : Option (Chunk × UInt16)}
    (h : ps.handleChunk source msg = .ok (ps', sent)) :
    Flow ps ps' new (.chunk source msg) picks sent := by
  rcases handleChunk_cases h with ⟨rfl, rfl⟩ | ⟨o, d, acked, transId, hout, hbrings, hcb, hcases⟩
  · exact .of_eq rfl rfl (by simp)
  · -- the buffer holds what it held, and maybe the chunk
    have hbuffer : ∀ e ∈ ChunkBuffer.getChunks ps'.trader.cb,
        e ∈ ChunkBuffer.getChunks ps.trader.cb ∨ new = some e
          ∨ (PsReceived.chunk (C := C) source msg).Brings e := by
      intro e he
      rw [hcb] at he
      rcases StoringChunkBuffer.mem_addChunk ps.trader.cb d e he with rfl | he
      · exact Or.inr (Or.inr hbrings)
      · exact Or.inl he
    rcases hcases with ⟨hsame, rfl⟩ | ⟨hacc, o', res, ws, hdel, hout', rfl⟩
    · exact ⟨by rw [PsInstance.isSource, hsame]; rfl, hbuffer, by simp [PsEffect.Justified],
        Or.inl ⟨hsame, rfl⟩⟩
    · have hself := StoringChunkBuffer.mem_self ps.trader.cb d hacc
      have hwritten : (PsEffect.trader (.ack source acked transId) :: ws.map .written).filterMap
          PsEffect.chunkWritten = ws := by
        rw [List.filterMap_cons_none rfl, List.filterMap_map]
        exact List.filterMap_some
      rw [← hcb] at hself
      rw [← hwritten] at hdel
      exact ⟨by simp [PsInstance.isSource, hout, hout'], hbuffer, by simp [PsEffect.Justified],
        Or.inr ⟨d, o, o', res, hbrings, hself, hout, hout', hdel⟩⟩

variable [LawfulChunkBuffer B] [DecidableEq ι] [PeerSet ι S] {now : ℤ}

lemma chunkTraderMsgParse_flow {sig : Option (Signal C)}
    (h : ps.chunkTraderMsgParse clk source sig now = .ok (ps', sent)) :
    Flow ps ps' new received picks sent := by
  simp only [PsInstance.chunkTraderMsgParse, Eval.bind_eq_ok] at h
  obtain ⟨⟨topology, p, told⟩, -, h⟩ := h
  cases p with
  | none =>
      cases h
      exact .of_eq rfl rfl (by simp)
  | some p =>
      cases sig with
      | none =>
          cases h
          exact .of_eq rfl rfl (by simp)
      | some sig =>
          cases sig with
          | bufferMap =>
              simp only [Eval.bind_eq_ok, Eval.pure_eq_ok, Except.ok.injEq, Prod.mk.injEq] at h
              obtain ⟨-, -, rfl, rfl⟩ := h
              exact .of_eq rfl rfl (by simp)
          | offer cset maxDeliver transId =>
              simp only [Eval.bind_eq_ok] at h
              obtain ⟨⟨topology', p', told'⟩, -, h⟩ := h
              cases p' with
              | none => cases h
              | some p' =>
                  simp only [Eval.bind_eq_ok, Eval.pure_eq_ok, Except.ok.injEq,
                    Prod.mk.injEq] at h
                  obtain ⟨-, -, sel, hsel, rfl, rfl⟩ := h
                  obtain ⟨chLocks, ticks, hct⟩ := chunkTraderHandleOffer_eq hsel
                  refine .of_eq (by simp only [hct]) rfl fun e he => ?_
                  rcases List.mem_append.mp he with he | he
                  · exact justified_topology _ told' e he
                  · obtain rfl := List.mem_singleton.mp he
                    exact ⟨trivial, rfl⟩
          | accept cset transId =>
              simp only [Eval.bind_eq_ok, Eval.pure_eq_ok, Except.ok.injEq, Prod.mk.injEq] at h
              obtain ⟨⟨trader, messages⟩, haccept, rfl, rfl⟩ := h
              simp only [ChunkTrader.chunkTraderHandleAccept, Eval.bind_eq_ok, Eval.pure_eq_ok,
                Except.ok.injEq, Prod.mk.injEq] at haccept
              obtain ⟨messages', hsend, rfl, rfl⟩ := haccept
              refine .of_eq rfl rfl (justified_trader fun m hm => ?_)
              obtain ⟨dst, c, rfl, hc⟩ := mem_peerChunkSend hsend hm
              exact hc
          | ack transId =>
              simp only [Eval.bind_eq_ok, Eval.pure_eq_ok, Except.ok.injEq, Prod.mk.injEq] at h
              obtain ⟨-, -, rfl, rfl⟩ := h
              exact .of_eq rfl rfl (by simp)

variable [StoringChunkBuffer B]

lemma psinstanceHandleMsg_flow (h : ps.psinstanceHandleMsg clk received now = .ok (ps', sent)) :
    Flow ps ps' new received picks sent := by
  cases received with
  | neighbourhood source type m =>
      simp only [PsInstance.psinstanceHandleMsg, Eval.bind_eq_ok, Eval.pure_eq_ok,
        Except.ok.injEq, Prod.mk.injEq] at h
      obtain ⟨⟨topology, told⟩, -, rfl, rfl⟩ := h
      exact .of_eq rfl rfl (justified_topology _ told)
  | chunk source msg => exact handleChunk_flow h
  | signalling source sig => exact chunkTraderMsgParse_flow h
  | nothing | sampler | unknown =>
      cases h
      exact .of_eq rfl rfl (by simp)

/-- **What is done in a round.** -/
lemma act_flow {u : PollInput C ι} {action : StreamingAction}
    (h : ps.act clk u action = .ok (ps', sent)) :
    Flow ps ps' u.newChunk u.received u.picks sent := by
  cases action with
  | offer =>
      simp only [PsInstance.act, Eval.bind_eq_ok, Eval.pure_eq_ok, Except.ok.injEq,
        Prod.mk.injEq] at h
      obtain ⟨interval, -, rfl, rfl⟩ := h
      obtain ⟨transactions, ticks, hct⟩ :=
        chunkTraderSendOffer_eq C clk ps.trader u.picks
      refine .of_eq (by simp only [hct]) rfl (justified_trader fun m hm => ?_)
      obtain ⟨dst, maxDeliver, transId, j, hne, rfl⟩ := mem_chunkTraderSendOffer hm
      exact ⟨j, hne, rfl⟩
  | inject =>
      simp only [PsInstance.act, Eval.bind_eq_ok, Eval.pure_eq_ok, Except.ok.injEq,
        Prod.mk.injEq] at h
      obtain ⟨⟨ps₁, sent₁⟩, hinject, rfl, rfl⟩ := h
      rw [← List.append_nil sent₁]
      exact (psinstanceInjectChunk_flow hinject).extend rfl rfl (by simp)
  | parseMsg => exact psinstanceHandleMsg_flow h
  | noAction =>
      cases h
      exact .of_eq rfl rfl (by simp)

/-- **One round.** -/
theorem psinstancePoll_flow {u : PollInput C ι}
    (h : ps.psinstancePoll clk u = .ok (ps', sent)) :
    Flow ps ps' u.newChunk u.received u.picks sent := by
  simp only [PsInstance.psinstancePoll, Eval.bind_eq_ok] at h
  obtain ⟨⟨ps₁, sent₁⟩, hact, h⟩ := h
  -- the timers are no matter
  have hflow : Flow ps ps₁ u.newChunk u.received u.picks sent₁ := by
    obtain ⟨hsource, hbuffer, hsends, hout⟩ := act_flow hact
    exact ⟨hsource, hbuffer, hsends, hout⟩
  dsimp only at h
  split_ifs at h
  · simp only [Eval.bind_eq_ok, Eval.pure_eq_ok, Except.ok.injEq, Prod.mk.injEq] at h
    obtain ⟨⟨topology, told⟩, -, rfl, rfl⟩ := h
    exact hflow.extend rfl rfl (justified_topology _ told)
  · simp only [Eval.pure_eq_ok, Except.ok.injEq, Prod.mk.injEq] at h
    obtain ⟨rfl, rfl⟩ := h
    rw [← List.append_nil sent₁]
    exact hflow.extend rfl rfl (by simp)

end Steps

end Flow

end PeerStreamer
